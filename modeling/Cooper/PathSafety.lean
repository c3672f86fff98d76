import Cooper.HttpReply
import Cooper.LexicalPath

namespace Cooper.PathSafety

open Cooper.Http
open Cooper.HttpReply
open Cooper.HttpServer
open Cooper.LexicalPath
open Cooper.MsgBuffer
open Cooper.Utilities

section Scanner

abbrev resolveFrom (dirs : List Bytes) (path : Bytes) : Option (List Bytes) :=
  resolve (46 : UInt8) dirs (names 47 path)

theorem resolveFrom_cons {c : UInt8} {path : Bytes} (hstart : (c :: path).head? ≠ some 47)
    (dirs : List Bytes) :
    resolveFrom dirs (c :: path) =
      (enter 46 dirs (c :: path.takeWhile (· ≠ 47))).bind fun dirs =>
        resolveFrom dirs (nextComponent path) := by
  have hc : c ≠ 47 := by
    rintro rfl
    exact hstart List.head?_cons
  rw [resolveFrom, resolve_takeWhile, List.takeWhile_cons_of_pos (by simpa using hc),
    List.dropWhile_cons_of_pos (by simpa using hc)]
  simp only [resolveFrom, nextComponent, resolve_dropWhile]

theorem dropWhile_slash_head (path : Bytes) : (path.dropWhile (· = 47)).head? ≠ some 47 := by
  intro hslash
  have hstop := List.head?_dropWhile_not (fun c : UInt8 => decide (c = 47)) path
  rw [hslash] at hstop
  simp at hstop

/-- The scanner counts the directories that the resolution is in. -/
theorem isValidPathLoop_eq (path : Bytes) (dirs : List Bytes) (hstart : path.head? ≠ some 47) :
    isValidPathLoop path dirs.length = (resolveFrom dirs path).isSome := by
  generalize hlevel : dirs.length = level
  have hnext : ∀ path, (nextComponent path).head? ≠ some 47 := fun path => dropWhile_slash_head _
  fun_induction isValidPathLoop path level generalizing dirs with
  | case1 level => rfl
  | case2 c path level component hdot ih =>
      have hstay : enter 46 dirs component = some dirs := by
        rw [hdot]
        exact enter_stay (by decide) (by decide) dirs
      rw [resolveFrom_cons hstart, hstay]
      exact ih dirs (hnext path) hlevel
  | case3 c path component hdot hup =>
      have hnone : enter 46 dirs component = none := by
        rw [hup, List.length_eq_zero_iff.mp hlevel]
        exact enter_up_nil
      rw [resolveFrom_cons hstart, hnone]
      rfl
  | case4 c path level component hdot hup hpos ih =>
      obtain ⟨dir, dirs, rfl⟩ := List.exists_cons_of_length_pos (by omega : 0 < dirs.length)
      have hpop : enter 46 (dir :: dirs) component = some dirs := by
        rw [hup]
        exact enter_up_cons dir dirs
      rw [resolveFrom_cons hstart, hpop]
      exact ih dirs (hnext path) (by rw [List.length_cons] at hlevel; omega)
  | case5 c path level component hdot hup ih =>
      have hpush : enter 46 dirs component = some (component :: dirs) :=
        enter_down ⟨List.cons_ne_nil _ _, hdot, hup⟩ dirs
      rw [resolveFrom_cons hstart, hpush]
      exact ih (component :: dirs) (hnext path) (by rw [List.length_cons, hlevel])

theorem isValidPath_iff (path : Bytes) : isValidPath path = true ↔ StaysBelow 47 46 path := by
  rw [isValidPath, StaysBelow, ← resolve_dropWhile 47,
    ← isValidPathLoop_eq _ [] (dropWhile_slash_head path)]
  rfl

end Scanner

section Lookup

/-- The path that a mount point makes of a request path, when it is looked up. -/
def mountedPath (entry : MountPointEntry) (path : Bytes) : Option Bytes :=
  if entry.mountPoint <+: path then
    let subPath := ascii "/" ++ path.drop entry.mountPoint.length
    if isValidPath subPath then
      let path := entry.baseDir ++ subPath
      some (if path.getLast? = some 47 then path ++ ascii "index.html" else path)
    else none
  else none

/-- The arguments of the calls of `isFile` that `handleFileRequest` makes, in order. -/
def isFileCalls (env : Environment) (path : Bytes) : List MountPointEntry → List Bytes
  | [] => []
  | entry :: baseDirs =>
      match mountedPath entry path with
      | none => isFileCalls env path baseDirs
      | some file => file :: if env.isFile file then [] else isFileCalls env path baseDirs

/-- The path is that of a directory followed by names that never lead above it. -/
def Inside (baseDir path : Bytes) : Prop :=
  ∃ relative, path = baseDir ++ relative ∧ relative.head? = some 47 ∧ StaysBelow 47 46 relative

variable {env : Environment} {server : Server}

theorem mountedFile_eq (entry : MountPointEntry) (path : Bytes) :
    mountedFile env entry path = (mountedPath entry path).filter env.isFile := by
  rw [mountedFile, mountedPath]
  split
  · simp only
    split
    · rw [Option.filter_some]
    · rfl
  · rfl

theorem mountedPath_inside {entry : MountPointEntry} {path file : Bytes}
    (hfile : mountedPath entry path = some file) : Inside entry.baseDir file := by
  rw [mountedPath] at hfile
  split at hfile
  · simp only at hfile
    split at hfile
    · rename_i hvalid
      have hbelow := (isValidPath_iff _).mp hvalid
      rw [← Option.some.inj hfile]
      split
      · rename_i hlast
        have hne : ascii "/" ++ path.drop entry.mountPoint.length ≠ [] := List.cons_ne_nil _ _
        rw [List.getLast?_append_of_ne_nil _ hne] at hlast
        obtain ⟨front, hend⟩ := List.getLast?_eq_some_iff.mp hlast
        refine ⟨ascii "/" ++ path.drop entry.mountPoint.length ++ ascii "index.html",
          List.append_assoc _ _ _, rfl, ?_⟩
        rw [hend] at hbelow ⊢
        rw [List.append_assoc]
        exact hbelow.append_name (by decide) (by decide)
      · exact ⟨_, rfl, rfl, hbelow⟩
    · simp at hfile
  · simp at hfile

theorem isFileCalls_inside {path file : Bytes} {baseDirs : List MountPointEntry}
    (hfile : file ∈ isFileCalls env path baseDirs) :
    ∃ entry ∈ baseDirs, Inside entry.baseDir file := by
  induction baseDirs with
  | nil => simp [isFileCalls] at hfile
  | cons entry baseDirs ih =>
      have hlater : file ∈ isFileCalls env path baseDirs →
          ∃ entry' ∈ entry :: baseDirs, Inside entry'.baseDir file := by
        intro hmem
        obtain ⟨entry', hentry, hinside⟩ := ih hmem
        exact ⟨entry', List.mem_cons_of_mem _ hentry, hinside⟩
      rw [isFileCalls] at hfile
      split at hfile
      · exact hlater hfile
      · rename_i first hfirst
        rcases List.mem_cons.mp hfile with rfl | hrest
        · exact ⟨entry, List.mem_cons_self, mountedPath_inside hfirst⟩
        · split at hrest
          · simp at hrest
          · exact hlater hrest

theorem mem_isFileCalls_of_served {path readBuffer : Bytes} {baseDirs : List MountPointEntry}
    {reply : Reply} {writer : HttpContentWriter}
    (hreply : fileReply env server path readBuffer baseDirs = some reply)
    (hwriter : reply.contentWriter = some writer) :
    writer.file ∈ isFileCalls env path baseDirs := by
  induction baseDirs with
  | nil => simp [fileReply] at hreply
  | cons entry baseDirs ih =>
      rw [fileReply, mountedFile_eq] at hreply
      rw [isFileCalls]
      cases hfile : mountedPath entry path with
      | none =>
          rw [hfile] at hreply
          exact ih hreply
      | some file =>
          rw [hfile, Option.filter_some] at hreply
          by_cases hexists : env.isFile file
          · simp only [hexists, if_true] at hreply
            split at hreply
            · obtain rfl := Option.some.inj hreply
              simp [statusReply] at hwriter
            · obtain rfl := Option.some.inj hreply
              obtain rfl := Option.some.inj hwriter
              exact List.mem_cons_self
          · simp only [hexists, Bool.false_eq_true, if_false] at hreply
            simp only [hexists, Bool.false_eq_true, if_false]
            exact List.mem_cons_of_mem _ (ih hreply)

/-- Every file that is looked up or served lies inside the directory of a mount point, and
`isValidPath` rejects exactly the paths that lead above their starting point. -/
theorem mountPoints_contain (env : Environment) (server : Server) (path : Bytes) :
    (∀ file ∈ isFileCalls env path server.baseDirs,
        ∃ entry ∈ server.baseDirs, Inside entry.baseDir file) ∧
      (∀ readBuffer reply writer, fileReply env server path readBuffer server.baseDirs = some reply →
        reply.contentWriter = some writer → writer.file ∈ isFileCalls env path server.baseDirs) ∧
      (∀ path, isValidPath path = true ↔ StaysBelow 47 46 path) ∧
      ∀ path, isValidPath path = false ↔
        ∃ front, front <+: names (47 : UInt8) path ∧ downs 46 front < ups 46 front := by
  refine ⟨fun file => isFileCalls_inside, fun _ _ _ => mem_isFileCalls_of_served, isValidPath_iff,
    fun path => ?_⟩
  rw [← Bool.not_eq_true, isValidPath_iff, StaysBelow, resolve_isSome_iff]
  simp

end Lookup

end Cooper.PathSafety
