import Cooper.IndexedList
import Cooper.MsgBuffer
import Cooper.TimerQueue

namespace Cooper

open Cooper.IndexedList
open Cooper.MsgBuffer
open Cooper.StepRun
open Cooper.TimerQueue (TimerId)

namespace SessionManager

/-- `SSL_SESSION*` -/
abbrev Session := Nat

/-- `EventLoop*` -/
abbrev Loop := Nat

/-- The address of an element of `sessions_`. -/
abbrev Iterator := Nat

structure SessionData where
  session : Session
  key : Bytes
  timerId : TimerId
  loop : Loop
deriving DecidableEq, Repr

/-- What the manager asks of event loops. The callback of a timer stands in by the key that it has
captured. -/
inductive LoopCall where
  | invalidateTimer (loop : Loop) (timerId : TimerId)
  | runAfter (loop : Loop) (delay : Nat) (timerId : TimerId) (key : Bytes)
deriving DecidableEq, Repr

end SessionManager

open SessionManager in
/-- `elements` counts the list elements made so far. `upRefs` and `freed` are the calls of
`SSL_SESSION_up_ref` and `SSL_SESSION_free`, with the element that they are for. -/
structure SessionManager where
  sessions : List (Iterator × SessionData)
  sessionMap : Bytes → Option Iterator
  elements : Nat
  upRefs : List (Iterator × Session)
  freed : List (Iterator × Session)
  loopCalls : List LoopCall

namespace SessionManager

def maxSessions : Nat := 150

def mexExtendSize : Nat := 20

def sessionTimeout : Nat := 3600

def init : SessionManager where
  sessions := []
  sessionMap := fun _ => none
  elements := 0
  upRefs := []
  freed := []
  loopCalls := []

/-- `ipPort` is `peerAddr.toIpPort()`. -/
def toKey (hostname ipPort : Bytes) : Bytes := hostname ++ ipPort

/-- `SSL_SESSION_free(it->session)`, `sessions_.erase(it)` and the erasing of the key from
`sessionMap_`. -/
def removeElement (m : SessionManager) (key : Bytes) (it : Iterator) (data : SessionData) :
    SessionManager :=
  { m with
    freed := m.freed ++ [(it, data.session)]
    sessions := m.sessions.filter (·.1 ≠ it)
    sessionMap := Function.update m.sessionMap key none }

def invalidateTimer (m : SessionManager) (data : SessionData) : SessionManager :=
  { m with loopCalls := m.loopCalls ++ [.invalidateTimer data.loop data.timerId] }

/-- What `store` does first: the session under the key is removed. There is no result where an
iterator is dereferenced whose element is erased, here and below. -/
def replace (m : SessionManager) (key : Bytes) : Option SessionManager :=
  match m.sessionMap key with
  | none => some m
  | some it =>
      (m.sessions.lookup it).map fun data => invalidateTimer (removeElement m key it data) data

/-- `timerId` is what `runAfter` answers. -/
def insert (m : SessionManager) (data : SessionData) : SessionManager :=
  { m with
    upRefs := m.upRefs ++ [(m.elements, data.session)]
    loopCalls := m.loopCalls ++ [.runAfter data.loop sessionTimeout data.timerId data.key]
    sessions := (m.elements, data) :: m.sessions
    sessionMap := Function.update m.sessionMap data.key (some m.elements)
    elements := m.elements + 1 }

def store (m : SessionManager) (hostname ipPort : Bytes) (session : Session) (loop : Loop)
    (timerId : TimerId) : Option SessionManager :=
  let key := toKey hostname ipPort
  (replace m key).map fun m => insert m ⟨session, key, timerId, loop⟩

def expire (m : SessionManager) (key : Bytes) : Option SessionManager :=
  match m.sessionMap key with
  | none => some m
  | some it => (m.sessions.lookup it).map fun data => removeElement m key it data

def removeExcessSession (m : SessionManager) : Option SessionManager :=
  if m.sessions.length < maxSessions + mexExtendSize then some m
  else if maxSessions < m.sessions.length then
    m.sessions.getLast?.map fun (it, data) =>
      invalidateTimer (removeElement m data.key it data) data
  else some m

/-- The outer option is for the iterator. -/
def get (m : SessionManager) (hostname ipPort : Bytes) : Option (Option Session) :=
  match m.sessionMap (toKey hostname ipPort) with
  | none => some none
  | some it => (m.sessions.lookup it).map fun data => some data.session

def destroy (m : SessionManager) : SessionManager :=
  { m with freed := m.freed ++ m.sessions.map fun (it, data) => (it, data.session) }

/-- `storing` counts the threads that are between the two sections of `store`. -/
structure State where
  manager : SessionManager
  storing : Nat

inductive Action where
  | store (hostname ipPort : Bytes) (session : Session) (loop : Loop) (timerId : TimerId)
  | removeExcessSession
  | get (hostname ipPort : Bytes)
  | expire (key : Bytes)
deriving DecidableEq, Repr

def State.init : State := ⟨SessionManager.init, 0⟩

def step (s : State) : Action → Option State
  | .store hostname ipPort session loop timerId =>
      (store s.manager hostname ipPort session loop timerId).map fun m => ⟨m, s.storing + 1⟩
  | .removeExcessSession =>
      if s.storing = 0 then none
      else (removeExcessSession s.manager).map fun m => ⟨m, s.storing - 1⟩
  | .get hostname ipPort => (get s.manager hostname ipPort).map fun _ => s
  | .expire key => (expire s.manager key).map fun m => ⟨m, s.storing⟩

/-- What a cache of sessions is for: the newest session under each key. -/
abbrev Cache := KeyedList SessionData.key

def Cache.removeExcess (c : Cache) : Cache :=
  if c.values.length < maxSessions + mexExtendSize then c else c.dropOldest

theorem Cache.mem_of_mem_removeExcess {c : Cache} {data : SessionData}
    (hmem : data ∈ c.removeExcess.values) : data ∈ c.values := by
  rw [Cache.removeExcess] at hmem
  split at hmem
  · exact hmem
  · exact List.mem_of_mem_dropLast hmem

/-- What the steps do to the cache. -/
def Cache.step (c : Cache) : Action → Cache
  | .store hostname ipPort session loop timerId =>
      c.put ⟨session, toKey hostname ipPort, timerId, loop⟩
  | .removeExcessSession => c.removeExcess
  | .get _ _ => c
  | .expire key => c.remove key

/-- The references of the listed sessions. -/
def listed (m : SessionManager) : List (Iterator × Session) :=
  m.sessions.map fun (it, data) => (it, data.session)

/-- The books of the manager. The list and the map are in bijection, and of the references taken,
one for each element made, those of the listed sessions are held and the others are given back. -/
structure Booked (m : SessionManager) : Prop where
  indexed : Indexed SessionData.key m.sessions m.sessionMap
  owned : m.upRefs.map Prod.fst = List.range m.elements
  balance : m.upRefs.Perm (listed m ++ m.freed)

theorem init_booked : Booked init := ⟨indexed_nil, rfl, List.Perm.nil⟩

namespace Booked

variable {m : SessionManager}

def cache (h : Booked m) : Cache := h.indexed.keyed

theorem element_lt (h : Booked m) {it : Iterator} {data : SessionData}
    (hmem : (it, data) ∈ m.sessions) : it < m.elements := by
  have hlisted : (it, data.session) ∈ listed m ++ m.freed :=
    List.mem_append_left _ (List.mem_map.mpr ⟨(it, data), hmem, rfl⟩)
  have htaken := List.mem_map_of_mem (f := Prod.fst) (h.balance.mem_iff.mpr hlisted)
  rw [h.owned] at htaken
  exact List.mem_range.mp htaken

theorem removeElement (h : Booked m) {it : Iterator} {data : SessionData}
    (hmem : (it, data) ∈ m.sessions) : Booked (removeElement m data.key it data) := by
  refine ⟨h.indexed.erase hmem, h.owned, h.balance.trans ?_⟩
  have hlisted : (listed m).Perm
      ((it, data.session) :: listed (m.removeElement data.key it data)) :=
    (h.indexed.perm_cons_filter hmem).map _
  apply (hlisted.append_right m.freed).trans
  change (_ :: (listed (m.removeElement data.key it data) ++ m.freed)).Perm
    (_ ++ (m.freed ++ [(it, data.session)]))
  rw [← List.append_assoc]
  exact (List.perm_append_singleton _ _).symm

theorem insert (h : Booked m) {data : SessionData} (hkey : m.sessionMap data.key = none) :
    Booked (insert m data) := by
  have hnew : m.elements ∉ m.sessions.map Prod.fst := by
    intro hmem
    obtain ⟨⟨it, data⟩, hmem, rfl⟩ := List.mem_map.mp hmem
    exact absurd (h.element_lt hmem) (lt_irrefl _)
  refine ⟨h.indexed.cons hnew hkey, ?_, ?_⟩
  · change (m.upRefs ++ [(m.elements, data.session)]).map Prod.fst = List.range (m.elements + 1)
    rw [List.map_append, h.owned, List.range_succ]
    rfl
  · exact (List.perm_append_singleton _ _).trans (h.balance.cons _)

theorem invalidateTimer (h : Booked m) (data : SessionData) : Booked (invalidateTimer m data) :=
  ⟨h.indexed, h.owned, h.balance⟩

theorem replace (h : Booked m) (key : Bytes) :
    ∃ m', replace m key = some m' ∧ m'.sessionMap key = none ∧
      ∃ h' : Booked m', h'.cache = h.cache.remove key := by
  rcases hkey : m.sessionMap key with _ | it
  · refine ⟨m, by simp only [SessionManager.replace, hkey], hkey, h, ?_⟩
    refine (KeyedList.remove_eq_self fun data hdata => ?_).symm
    obtain ⟨⟨it, data⟩, hmem, rfl⟩ := List.mem_map.mp hdata
    exact h.indexed.key_ne_of_none hkey hmem
  · obtain ⟨data, hlookup, hmem, rfl⟩ := h.indexed.lookup hkey
    simp only [SessionManager.replace, hkey, hlookup, Option.map_some]
    refine ⟨_, rfl, Function.update_self .., ?_⟩
    exact ⟨(h.removeElement hmem).invalidateTimer data, h.indexed.keyed_erase hmem⟩

theorem store (h : Booked m) (hostname ipPort : Bytes) (session : Session) (loop : Loop)
    (timerId : TimerId) :
    ∃ m', store m hostname ipPort session loop timerId = some m' ∧ ∃ h' : Booked m',
      h'.cache = h.cache.put ⟨session, toKey hostname ipPort, timerId, loop⟩ := by
  obtain ⟨m', hreplace, hkey, h', hcache⟩ := h.replace (toKey hostname ipPort)
  simp only [SessionManager.store, hreplace, Option.map_some]
  refine ⟨_, rfl, h'.insert hkey, ?_⟩
  apply KeyedList.ext
  change _ :: h'.cache.values = _
  rw [hcache]
  rfl

theorem expire (h : Booked m) (key : Bytes) :
    ∃ m', expire m key = some m' ∧ ∃ h' : Booked m', h'.cache = h.cache.remove key := by
  rcases hkey : m.sessionMap key with _ | it
  · refine ⟨m, by simp only [SessionManager.expire, hkey], h, ?_⟩
    refine (KeyedList.remove_eq_self fun data hdata => ?_).symm
    obtain ⟨⟨it, data⟩, hmem, rfl⟩ := List.mem_map.mp hdata
    exact h.indexed.key_ne_of_none hkey hmem
  · obtain ⟨data, hlookup, hmem, rfl⟩ := h.indexed.lookup hkey
    simp only [SessionManager.expire, hkey, hlookup, Option.map_some]
    exact ⟨_, rfl, h.removeElement hmem, h.indexed.keyed_erase hmem⟩

theorem removeExcessSession (h : Booked m) :
    ∃ m', removeExcessSession m = some m' ∧ ∃ h' : Booked m',
      h'.cache = h.cache.removeExcess := by
  have hlength : h.cache.values.length = m.sessions.length := List.length_map _
  rw [SessionManager.removeExcessSession, Cache.removeExcess, hlength]
  split <;> rename_i hsize
  · exact ⟨m, rfl, h, rfl⟩
  · have hmax : maxSessions < m.sessions.length := by
      simp only [maxSessions, mexExtendSize] at hsize ⊢
      omega
    have hne : m.sessions ≠ [] := List.ne_nil_of_length_pos (by omega)
    have hlast := List.getLast?_eq_some_getLast hne
    rw [if_pos hmax, hlast]
    exact ⟨_, rfl, (h.removeElement (List.getLast_mem hne)).invalidateTimer _,
      h.indexed.keyed_erase_last hlast⟩

/-- What is asked of a loop when the session has left the cache. -/
def invalidation (data : SessionData) : LoopCall := .invalidateTimer data.loop data.timerId

theorem loopCalls_replace (h : Booked m) {key : Bytes} {m' : SessionManager}
    (hreplace : SessionManager.replace m key = some m') :
    m'.loopCalls = m.loopCalls ++ ((h.cache.find key).map invalidation).toList := by
  rw [cache, h.indexed.find_keyed]
  rw [SessionManager.replace] at hreplace
  rcases hkey : m.sessionMap key with _ | it
  · rw [hkey] at hreplace
    obtain rfl := Option.some.inj hreplace
    exact (List.append_nil _).symm
  · rw [hkey] at hreplace
    obtain ⟨data, hlookup, rfl⟩ := Option.map_eq_some_iff.mp hreplace
    simp only [Option.bind_some, hlookup, Option.map_some, Option.toList_some]
    rfl

theorem loopCalls_store (h : Booked m) {hostname ipPort : Bytes} {session : Session} {loop : Loop}
    {timerId : TimerId} {m' : SessionManager}
    (hstore : SessionManager.store m hostname ipPort session loop timerId = some m') :
    m'.loopCalls = m.loopCalls ++
      (((h.cache.find (toKey hostname ipPort)).map invalidation).toList ++
        [.runAfter loop sessionTimeout timerId (toKey hostname ipPort)]) := by
  obtain ⟨replaced, hreplace, rfl⟩ := Option.map_eq_some_iff.mp hstore
  change replaced.loopCalls ++ _ = _
  rw [h.loopCalls_replace hreplace, List.append_assoc]

theorem loopCalls_removeExcessSession (h : Booked m) {m' : SessionManager}
    (hremove : SessionManager.removeExcessSession m = some m') :
    m'.loopCalls = m.loopCalls ++
      if h.cache.values.length < maxSessions + mexExtendSize then []
      else (h.cache.values.getLast?.map invalidation).toList := by
  have hlength : h.cache.values.length = m.sessions.length := List.length_map _
  have hlast : h.cache.values.getLast? = m.sessions.getLast?.map Prod.snd := List.getLast?_map
  rw [SessionManager.removeExcessSession] at hremove
  rw [hlength, hlast]
  by_cases hsize : m.sessions.length < maxSessions + mexExtendSize
  · rw [if_pos hsize] at hremove ⊢
    obtain rfl := Option.some.inj hremove
    exact (List.append_nil _).symm
  · have hmax : maxSessions < m.sessions.length := by
      simp only [maxSessions, mexExtendSize] at hsize ⊢
      omega
    rw [if_neg hsize, if_pos hmax] at hremove
    obtain ⟨⟨it, data⟩, hcell, rfl⟩ := Option.map_eq_some_iff.mp hremove
    rw [if_neg hsize, hcell]
    rfl

theorem get (h : Booked m) (hostname ipPort : Bytes) :
    get m hostname ipPort =
      some ((h.cache.find (toKey hostname ipPort)).map SessionData.session) := by
  rw [SessionManager.get, cache, h.indexed.find_keyed]
  rcases hkey : m.sessionMap (toKey hostname ipPort) with _ | it
  · rfl
  · obtain ⟨data, hlookup, -⟩ := h.indexed.lookup hkey
    simp only [hlookup, Option.map_some, Option.bind_some]

theorem destroy (h : Booked m) : (destroy m).freed.Perm m.upRefs :=
  List.perm_append_comm.trans h.balance.symm

end Booked

theorem step_booked {s : State} (h : Booked s.manager) {a : Action}
    (ha : a = .removeExcessSession → s.storing ≠ 0) :
    ∃ s', step s a = some s' ∧ ∃ h' : Booked s'.manager, h'.cache = h.cache.step a := by
  cases a with
  | store hostname ipPort session loop timerId =>
      obtain ⟨m', hstore, h', hcache⟩ := h.store hostname ipPort session loop timerId
      simp only [step, hstore, Option.map_some]
      exact ⟨_, rfl, h', hcache⟩
  | removeExcessSession =>
      obtain ⟨m', hremove, h', hcache⟩ := h.removeExcessSession
      simp only [step, ha rfl, if_false, hremove, Option.map_some]
      exact ⟨_, rfl, h', hcache⟩
  | get hostname ipPort =>
      simp only [step, h.get, Option.map_some]
      exact ⟨_, rfl, h, rfl⟩
  | expire key =>
      obtain ⟨m', hexpire, h', hcache⟩ := h.expire key
      simp only [step, hexpire, Option.map_some]
      exact ⟨_, rfl, h', hcache⟩

theorem booked_of_step {s s' : State} (h : Booked s.manager) {a : Action}
    (hstep : step s a = some s') : ∃ h' : Booked s'.manager, h'.cache = h.cache.step a := by
  have ha : a = .removeExcessSession → s.storing ≠ 0 := by
    rintro rfl hzero
    simp [step, hzero] at hstep
  obtain ⟨next, hnext, h'⟩ := step_booked h ha
  obtain rfl := Option.some.inj (hnext.symm.trans hstep)
  exact h'

def storingAfter (storing : Nat) : Action → Nat
  | .store .. => storing + 1
  | .removeExcessSession => storing - 1
  | .get _ _ | .expire _ => storing

theorem storing_of_step {s s' : State} {a : Action} (hstep : step s a = some s') :
    s'.storing = storingAfter s.storing a := by
  cases a with
  | store hostname ipPort session loop timerId =>
      obtain ⟨m', -, rfl⟩ := Option.map_eq_some_iff.mp hstep
      rfl
  | removeExcessSession =>
      rw [step] at hstep
      split at hstep
      · contradiction
      · obtain ⟨m', -, rfl⟩ := Option.map_eq_some_iff.mp hstep
        rfl
  | get hostname ipPort =>
      obtain ⟨found, -, rfl⟩ := Option.map_eq_some_iff.mp hstep
      rfl
  | expire key =>
      obtain ⟨m', -, rfl⟩ := Option.map_eq_some_iff.mp hstep
      rfl

/-- A session too many is there for each thread that has still to remove one. -/
def Bounded (c : Cache) (storing : Nat) : Prop :=
  c.values.length < maxSessions + mexExtendSize + storing

theorem Bounded.step {c : Cache} {storing : Nat} (h : Bounded c storing) {a : Action}
    (ha : a = .removeExcessSession → storing ≠ 0) :
    Bounded (c.step a) (storingAfter storing a) := by
  cases a with
  | store hostname ipPort session loop timerId =>
      exact (c.length_put_le _).trans_lt (Nat.succ_lt_succ h)
  | removeExcessSession =>
      have hstoring := ha rfl
      have hlast : c.dropOldest.values.length = c.values.length - 1 := List.length_dropLast
      have hroom : 0 < maxSessions + mexExtendSize := by decide
      simp only [Bounded, Cache.step, Cache.removeExcess, storingAfter] at h ⊢
      split <;> rename_i hsize
      · omega
      · rw [hlast]
        omega
  | get hostname ipPort => exact h
  | expire key => exact (List.length_filter_le _ _).trans_lt h

structure Kept (s : State) : Prop where
  booked : Booked s.manager
  bounded : Bounded booked.cache s.storing

theorem init_kept : Kept State.init := ⟨init_booked, Nat.zero_lt_succ _⟩

theorem step_kept {s s' : State} (h : Kept s) {a : Action} (hstep : step s a = some s') :
    Kept s' := by
  obtain ⟨hbooked, hcache⟩ := booked_of_step h.booked hstep
  refine ⟨hbooked, ?_⟩
  rw [hcache, storing_of_step hstep]
  apply h.bounded.step
  rintro rfl hzero
  simp [step, hzero] at hstep

/-- In every run the list and the map stay in bijection, each listed session owns one reference and
each removed one has given it back once, and the destructor gives back the rest. After stores that
do not overlap `storing` is 0. No iterator is dereferenced whose element is erased. -/
theorem runs_kept {actions : List Action} {s : State}
    (hrun : runSteps step State.init actions = some s) :
    Booked s.manager ∧ (destroy s.manager).freed.Perm s.manager.upRefs ∧
      s.manager.sessions.length < maxSessions + mexExtendSize + s.storing ∧
      ∀ a, (a = .removeExcessSession → s.storing ≠ 0) → (step s a).isSome := by
  have h : Kept s := runSteps_invariant Kept (fun s a s' h => step_kept h) init_kept hrun
  refine ⟨h.booked, h.booked.destroy, ?_, ?_⟩
  · have hlength : h.booked.cache.values.length = s.manager.sessions.length := List.length_map _
    rw [← hlength]
    exact h.bounded
  · intro a ha
    obtain ⟨s', hstep, -⟩ := step_booked h.booked ha
    rw [hstep]
    rfl

def replaced : List Action :=
  [.store (ascii "cooper") (ascii "1.2.3.4:443") 1 0 1, .removeExcessSession,
    .store (ascii "cooper") (ascii "1.2.3.4:443") 2 0 2, .removeExcessSession,
    .expire (ascii "cooper1.2.3.4:443")]

theorem runs_kept_replaced :
    ∃ s, runSteps step State.init replaced = some s ∧ s.manager.freed = [(0, 1), (1, 2)] ∧
      (destroy s.manager).freed.Perm s.manager.upRefs := by
  refine ⟨_, rfl, rfl, ?_⟩
  exact (@runs_kept replaced _ rfl).2.1

end SessionManager

end Cooper
