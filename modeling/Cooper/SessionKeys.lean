import Cooper.DecimalText
import Cooper.SessionManager

namespace Cooper

open Cooper.DecimalText
open Cooper.IndexedList
open Cooper.MsgBuffer
open Cooper.StepRun

/-- `in_addr`, in network byte order. -/
structure InAddr where
  b₀ : UInt8
  b₁ : UInt8
  b₂ : UInt8
  b₃ : UInt8
deriving DecidableEq, Repr

def inetNtop (addr : InAddr) : Bytes :=
  ascii (toString addr.b₀.toNat) ++ 46 :: ascii (toString addr.b₁.toNat) ++
    46 :: ascii (toString addr.b₂.toNat) ++ 46 :: ascii (toString addr.b₃.toNat)

/-- The union of `sockaddr_in` and `sockaddr_in6`, by `sin_family`. The ports are those that `ntohs`
gives. -/
inductive InetAddress where
  | inet (addr : InAddr) (port : UInt16)
  | inet6 (addr : Vector UInt8 16) (port : UInt16)
deriving DecidableEq

namespace InetAddress

-- `inet_ntop` for `AF_INET6`
variable (inetNtop6 : Vector UInt8 16 → Bytes)

def toIp : InetAddress → Bytes
  | inet addr _ => inetNtop addr
  | inet6 addr _ => inetNtop6 addr

def toPort : InetAddress → UInt16
  | inet _ port => port
  | inet6 _ port => port

def toIpPort (a : InetAddress) : Bytes :=
  a.toIp inetNtop6 ++ 58 :: ascii (toString a.toPort.toNat)

end InetAddress

namespace SessionKeys

open Cooper.SessionManager

theorem append_separator_inj {α : Type*} {separator : α} {xs ys us vs : List α}
    (hus : separator ∉ us) (hvs : separator ∉ vs) :
    xs ++ separator :: us = ys ++ separator :: vs ↔ xs = ys ∧ us = vs := by
  constructor
  · intro h
    rcases List.append_eq_append_iff.mp h with ⟨moved, rfl, hrest⟩ | ⟨moved, rfl, hrest⟩
    · cases moved with
      | nil => exact ⟨(List.append_nil _).symm, (List.cons.inj hrest).2⟩
      | cons c moved =>
          apply absurd _ hus
          rw [(List.cons.inj hrest).2]
          exact List.mem_append_right _ List.mem_cons_self
    · cases moved with
      | nil => exact ⟨List.append_nil _, (List.cons.inj hrest).2.symm⟩
      | cons c moved =>
          apply absurd _ hvs
          rw [(List.cons.inj hrest).2]
          exact List.mem_append_right _ List.mem_cons_self
  · rintro ⟨rfl, rfl⟩
    rfl

theorem separator_not_mem {c : UInt8} (hc : c < 48 ∨ 57 < c) (n : Nat) :
    c ∉ ascii (toString n) := by
  intro hmem
  obtain ⟨hlow, hhigh⟩ := mem_toString hmem
  rcases hc with hc | hc
  · exact absurd hlow (UInt8.not_le.mpr hc)
  · exact absurd hhigh (UInt8.not_le.mpr hc)

variable (inetNtop6 : Vector UInt8 16 → Bytes)

theorem append_toIpPort_inj {xs ys : Bytes} {a b : InetAddress} :
    xs ++ a.toIpPort inetNtop6 = ys ++ b.toIpPort inetNtop6 ↔
      xs ++ a.toIp inetNtop6 = ys ++ b.toIp inetNtop6 ∧ a.toPort = b.toPort := by
  rw [InetAddress.toIpPort, InetAddress.toIpPort, ← List.append_assoc, ← List.append_assoc,
    append_separator_inj (separator_not_mem (by decide) _) (separator_not_mem (by decide) _),
    toString_injective.eq_iff, UInt16.toNat_inj]

/-- The address of the second server is that of the first with a piece in front, and this piece is
what the host name of the first server has at its end and that of the second does not. -/
def Shifted (hostname : Bytes) (peerAddr : InetAddress) (hostname' : Bytes)
    (peerAddr' : InetAddress) : Prop :=
  ∃ moved, moved ≠ [] ∧ hostname = hostname' ++ moved ∧
    peerAddr'.toIp inetNtop6 = moved ++ peerAddr.toIp inetNtop6 ∧
    peerAddr'.toPort = peerAddr.toPort

theorem toKey_of_shifted {hostname hostname' : Bytes} {peerAddr peerAddr' : InetAddress}
    (h : Shifted inetNtop6 hostname peerAddr hostname' peerAddr') :
    toKey hostname (peerAddr.toIpPort inetNtop6) = toKey hostname' (peerAddr'.toIpPort inetNtop6) ∧
      hostname ≠ hostname' := by
  obtain ⟨moved, hmoved, rfl, hip, hport⟩ := h
  constructor
  · rw [toKey, toKey, append_toIpPort_inj, hip, List.append_assoc]
    exact ⟨rfl, hport.symm⟩
  · intro hname
    exact hmoved (List.append_cancel_left (hname.trans (List.append_nil _).symm))

/-- Equal keys are those of one server, unless the servers are shifted. -/
theorem equal_keys {hostname hostname' : Bytes} {peerAddr peerAddr' : InetAddress}
    (hfirst : ¬Shifted inetNtop6 hostname peerAddr hostname' peerAddr')
    (hsecond : ¬Shifted inetNtop6 hostname' peerAddr' hostname peerAddr)
    (hkey : toKey hostname (peerAddr.toIpPort inetNtop6) =
      toKey hostname' (peerAddr'.toIpPort inetNtop6)) :
    hostname = hostname' ∧ peerAddr.toIp inetNtop6 = peerAddr'.toIp inetNtop6 ∧
      peerAddr.toPort = peerAddr'.toPort := by
  rw [toKey, toKey, append_toIpPort_inj, List.append_eq_append_iff] at hkey
  obtain ⟨⟨moved, hhost, hip⟩ | ⟨moved, hhost, hip⟩, hport⟩ := hkey
  · have hmoved : moved = [] := by
      by_contra hne
      exact hsecond ⟨moved, hne, hhost, hip, hport⟩
    subst hmoved
    exact ⟨(hhost.trans (List.append_nil _)).symm, hip, hport⟩
  · have hmoved : moved = [] := by
      by_contra hne
      exact hfirst ⟨moved, hne, hhost, hip, hport.symm⟩
    subst hmoved
    exact ⟨hhost.trans (List.append_nil _), hip.symm, hport⟩

/-- The keys of two servers tell them apart exactly when the servers are not shifted. -/
theorem toKey_injective_iff (hostname hostname' : Bytes) (peerAddr peerAddr' : InetAddress) :
    (toKey hostname (peerAddr.toIpPort inetNtop6) =
          toKey hostname' (peerAddr'.toIpPort inetNtop6) →
        hostname = hostname' ∧ peerAddr.toIp inetNtop6 = peerAddr'.toIp inetNtop6 ∧
          peerAddr.toPort = peerAddr'.toPort) ↔
      ¬Shifted inetNtop6 hostname peerAddr hostname' peerAddr' ∧
        ¬Shifted inetNtop6 hostname' peerAddr' hostname peerAddr := by
  constructor
  · intro hinj
    constructor
    · intro hshifted
      obtain ⟨hkey, hne⟩ := toKey_of_shifted inetNtop6 hshifted
      exact hne (hinj hkey).1
    · intro hshifted
      obtain ⟨hkey, hne⟩ := toKey_of_shifted inetNtop6 hshifted
      exact hne (hinj hkey.symm).1.symm
  · rintro ⟨hfirst, hsecond⟩
    exact equal_keys inetNtop6 hfirst hsecond

/-- The session of `host1` at 2.3.4.5 is under the key of `host` at 12.3.4.5. -/
theorem not_toKey_injective :
    ¬∀ (inetNtop6 : Vector UInt8 16 → Bytes) (hostname hostname' : Bytes)
      (peerAddr peerAddr' : InetAddress),
      toKey hostname (peerAddr.toIpPort inetNtop6) =
          toKey hostname' (peerAddr'.toIpPort inetNtop6) →
        hostname = hostname' ∧ peerAddr.toIp inetNtop6 = peerAddr'.toIp inetNtop6 ∧
          peerAddr.toPort = peerAddr'.toPort := by
  intro h
  have hsame := h (fun _ => []) (ascii "host1") (ascii "host") (.inet ⟨2, 3, 4, 5⟩ 443)
    (.inet ⟨12, 3, 4, 5⟩ 443) (by decide)
  exact absurd hsame.1 (by decide)

theorem shifted_inet_iff {hostname hostname' : Bytes} {addr addr' : InAddr} {port port' : UInt16} :
    Shifted inetNtop6 hostname (.inet addr port) hostname' (.inet addr' port') ↔
      ∃ moved, moved ≠ [] ∧ hostname = hostname' ++ moved ∧
        ascii (toString addr'.b₀.toNat) = moved ++ ascii (toString addr.b₀.toNat) ∧
        addr'.b₁ = addr.b₁ ∧ addr'.b₂ = addr.b₂ ∧ addr'.b₃ = addr.b₃ ∧ port' = port := by
  have hdot (n : Nat) : 46 ∉ ascii (toString n) := separator_not_mem (by decide) n
  apply exists_congr
  intro moved
  simp only [InetAddress.toIp, InetAddress.toPort, inetNtop]
  simp only [← List.append_assoc, append_separator_inj (hdot _) (hdot _),
    toString_injective.eq_iff, UInt8.toNat_inj, and_assoc]

def Stored (actions : List Action) (c : Cache) : Prop :=
  ∀ data ∈ c.values, ∃ hostname ipPort loop timerId,
    .store hostname ipPort data.session loop timerId ∈ actions ∧ toKey hostname ipPort = data.key

theorem Stored.step {actions : List Action} {c : Cache} (h : Stored actions c) (a : Action) :
    Stored (actions ++ [a]) (c.step a) := by
  have hleft {data : SessionData} (hmem : data ∈ c.values) :
      ∃ hostname ipPort loop timerId,
        .store hostname ipPort data.session loop timerId ∈ actions ++ [a] ∧
          toKey hostname ipPort = data.key := by
    obtain ⟨hostname, ipPort, loop, timerId, hstore, hkey⟩ := h data hmem
    exact ⟨hostname, ipPort, loop, timerId, List.mem_append_left _ hstore, hkey⟩
  cases a with
  | store hostname ipPort session loop timerId =>
      intro data hmem
      rcases List.mem_cons.mp hmem with rfl | hmem
      · exact ⟨hostname, ipPort, loop, timerId, List.mem_append_right _ List.mem_cons_self, rfl⟩
      · exact hleft (List.mem_of_mem_filter hmem)
  | removeExcessSession =>
      intro data hmem
      exact hleft (Cache.mem_of_mem_removeExcess hmem)
  | get hostname ipPort =>
      intro data hmem
      exact hleft hmem
  | expire key =>
      intro data hmem
      exact hleft (List.mem_of_mem_filter hmem)

theorem run_stored {actions : List Action} {s : State}
    (hrun : runSteps step State.init actions = some s) :
    ∃ h : Booked s.manager, Stored actions h.cache := by
  induction actions using List.reverseRecOn generalizing s with
  | nil =>
      obtain rfl := Option.some.inj hrun
      exact ⟨init_booked, nofun⟩
  | append_singleton actions a ih =>
      rw [runSteps_append] at hrun
      obtain ⟨before, hbefore, hlast⟩ := Option.bind_eq_some_iff.mp hrun
      obtain ⟨hbooked, hstored⟩ := ih hbefore
      rw [runSteps_cons] at hlast
      obtain ⟨after, hstep, hafter⟩ := Option.bind_eq_some_iff.mp hlast
      obtain rfl := Option.some.inj hafter
      obtain ⟨hbooked', hcache⟩ := booked_of_step hbooked hstep
      refine ⟨hbooked', ?_⟩
      rw [hcache]
      exact hstored.step a

theorem offered_stored {actions : List Action} {s : State}
    (hrun : runSteps step State.init actions = some s) {hostname : Bytes} {peerAddr : InetAddress}
    {session : Session}
    (hget : get s.manager hostname (peerAddr.toIpPort inetNtop6) = some (some session)) :
    ∃ hostname' ipPort' loop timerId,
      .store hostname' ipPort' session loop timerId ∈ actions ∧
        ∀ peerAddr' : InetAddress, ipPort' = peerAddr'.toIpPort inetNtop6 →
          ¬Shifted inetNtop6 hostname' peerAddr' hostname peerAddr →
          ¬Shifted inetNtop6 hostname peerAddr hostname' peerAddr' →
          hostname' = hostname ∧ peerAddr'.toIp inetNtop6 = peerAddr.toIp inetNtop6 ∧
            peerAddr'.toPort = peerAddr.toPort := by
  obtain ⟨hbooked, hstored⟩ := run_stored hrun
  rw [hbooked.get, Option.some.injEq, Option.map_eq_some_iff] at hget
  obtain ⟨data, hfind, rfl⟩ := hget
  obtain ⟨hmem, hkey⟩ := KeyedList.find_eq_some_iff.mp hfind
  obtain ⟨hostname', ipPort', loop, timerId, hstore, hkey'⟩ := hstored data hmem
  refine ⟨hostname', ipPort', loop, timerId, hstore, ?_⟩
  rintro peerAddr' rfl hfirst hsecond
  exact (equal_keys inetNtop6 hfirst hsecond) (hkey'.trans hkey)

/-- The session of `host1` at 2.3.4.5 is offered to `host` at 12.3.4.5. -/
example :
    ((runSteps step State.init
        [.store (ascii "host1") (ascii "2.3.4.5:443") 1 0 1]).bind fun s =>
      get s.manager (ascii "host") (ascii "12.3.4.5:443")) = some (some 1) := by
  decide

end SessionKeys

end Cooper
