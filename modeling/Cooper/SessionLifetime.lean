import Cooper.SessionManager

/-!
How long the sessions live that `SessionManager::get` hands out. A session is counted by the
references that SSL objects and the manager have to it; the thread that has got one from the manager
takes its own reference later.
-/

namespace Cooper.SessionLifetime

open Cooper.IndexedList
open Cooper.MsgBuffer
open Cooper.SessionManager
open Cooper.StepRun
open Cooper.TimerQueue (TimerId)

abbrev Ssl := Nat

abbrev Table := KeyedList (Prod.fst : Ssl × Session → Ssl)

/-- `attached` are the SSL objects with the sessions that they have references to. `offered` are
those in `startEncryption` between `get` and `SSL_set_session`, with what they have got. `sessions`
counts the sessions made so far. -/
structure Process where
  cache : State
  attached : Table
  offered : Table
  sessions : Nat

inductive Event where
  /-- `SSL_do_handshake` makes a new session. -/
  | newSession (ssl : Ssl)
  /-- The first section of `SessionManager::store`, for the session of the SSL object. -/
  | store (ssl : Ssl) (hostname ipPort : Bytes) (loop : Loop) (timerId : TimerId)
  | removeExcessSession
  | expire (key : Bytes)
  /-- `SessionManager::get` in `startEncryption` -/
  | get (ssl : Ssl) (hostname ipPort : Bytes)
  | SSL_set_session (ssl : Ssl)
  | SSL_free (ssl : Ssl)
deriving DecidableEq, Repr

def init : Process where
  cache := State.init
  attached := KeyedList.empty
  offered := KeyedList.empty
  sessions := 0

/-- The reference count of a session. -/
def references (s : Process) (session : Session) : Nat :=
  (s.attached.values.map Prod.snd).count session +
    (s.cache.manager.upRefs.map Prod.snd).count session -
    (s.cache.manager.freed.map Prod.snd).count session

def onCache (s : Process) (a : Action) : Option Process :=
  (SessionManager.step s.cache a).map fun cache => { s with cache := cache }

/-- There is no result where a session is used whose last reference is gone. An SSL object is worked
on by one thread, which is in `startEncryption` while the object is in `offered`. -/
def step (s : Process) : Event → Option Process
  | .newSession ssl =>
      if s.offered.find ssl = none then
        some { s with
          attached := s.attached.put (ssl, s.sessions)
          sessions := s.sessions + 1 }
      else none
  | .store ssl hostname ipPort loop timerId =>
      (s.attached.find ssl).bind fun (_, session) =>
        onCache s (.store hostname ipPort session loop timerId)
  | .removeExcessSession => onCache s .removeExcessSession
  | .expire key => onCache s (.expire key)
  | .get ssl hostname ipPort =>
      if s.offered.find ssl = none then
        (SessionManager.get s.cache.manager hostname ipPort).map fun
          | none => s
          | some session => { s with offered := s.offered.put (ssl, session) }
      else none
  | .SSL_set_session ssl =>
      (s.offered.find ssl).bind fun (_, session) =>
        if 0 < references s session then
          some { s with
            attached := s.attached.put (ssl, session)
            offered := s.offered.remove ssl }
        else none
  | .SSL_free ssl =>
      if s.offered.find ssl = none then some { s with attached := s.attached.remove ssl } else none

/-- A session that has been handed out is alive when it is used. -/
def UsesAlive (s : Process) (e : Event) : Prop :=
  ∀ offer ∈ s.offered.values, e = .SSL_set_session offer.1 → 0 < references s offer.2

instance (s : Process) (e : Event) : Decidable (UsesAlive s e) :=
  inferInstanceAs (Decidable (∀ _ ∈ _, _))

def cached (m : SessionManager) (key : Bytes) : Option Session :=
  ((m.sessionMap key).bind fun it => m.sessions.lookup it).map SessionData.session

/-- The session that loses a reference: the one that is replaced, expires, is evicted or is detached
from an SSL object. -/
def released (s : Process) : Event → Option Session
  | .newSession ssl => (s.attached.find ssl).map Prod.snd
  | .store _ hostname ipPort _ _ => cached s.cache.manager (toKey hostname ipPort)
  | .removeExcessSession =>
      if s.cache.manager.sessions.length < maxSessions + mexExtendSize then none
      else s.cache.manager.sessions.getLast?.map fun (_, data) => data.session
  | .expire key => cached s.cache.manager key
  | .get _ _ _ => none
  | .SSL_set_session ssl =>
      if s.attached.find ssl = s.offered.find ssl then none
      else (s.attached.find ssl).map Prod.snd
  | .SSL_free ssl => (s.attached.find ssl).map Prod.snd

/-- A session that is handed out and not yet used does not lose its last reference. -/
def KeepsOffered (s : Process) (e : Event) : Prop :=
  ∀ offer ∈ s.offered.values, released s e = some offer.2 → 1 < references s offer.2

instance (s : Process) (e : Event) : Decidable (KeepsOffered s e) :=
  inferInstanceAs (Decidable (∀ _ ∈ _, _))

theorem references_eq {s : Process} (h : Booked s.cache.manager) (session : Session) :
    references s session = (s.attached.values.map Prod.snd).count session +
      (h.cache.values.map SessionData.session).count session := by
  have hbalance := (h.balance.map Prod.snd).count_eq session
  have hlisted : (listed s.cache.manager).map Prod.snd =
      h.cache.values.map SessionData.session := by
    change _ = (s.cache.manager.sessions.map Prod.snd).map SessionData.session
    rw [listed, List.map_map, List.map_map]
    rfl
  rw [List.map_append, List.count_append, hlisted] at hbalance
  rw [references, hbalance]
  omega

theorem cached_eq {m : SessionManager} (h : Booked m) (key : Bytes) :
    cached m key = (h.cache.find key).map SessionData.session := by
  rw [cached, Booked.cache, h.indexed.find_keyed]

section Steps

variable {s s' : Process}

theorem onCache_booked (h : Booked s.cache.manager) {a : Action} (hstep : onCache s a = some s') :
    ∃ h' : Booked s'.cache.manager, h'.cache = h.cache.step a ∧ s'.attached = s.attached ∧
      s'.offered = s.offered := by
  obtain ⟨cache, hcache, rfl⟩ := Option.map_eq_some_iff.mp hstep
  obtain ⟨h', hcache'⟩ := booked_of_step h hcache
  exact ⟨h', hcache', rfl, rfl⟩

theorem references_put (h : Booked s.cache.manager) (hcache : s'.cache = s.cache) {ssl : Ssl}
    {new : Session} (hattached : s'.attached = s.attached.put (ssl, new)) (session : Session) :
    references s' session +
        (if (s.attached.find ssl).map Prod.snd = some session then 1 else 0) =
      references s session + if new = session then 1 else 0 := by
  have h' : Booked s'.cache.manager := hcache ▸ h
  have hsame : h'.cache.values = h.cache.values := by
    change s'.cache.manager.sessions.map Prod.snd = s.cache.manager.sessions.map Prod.snd
    rw [hcache]
  rw [references_eq h', references_eq h, hsame, hattached]
  have hput : ((s.attached.put (ssl, new)).values.map Prod.snd).count session =
      ((s.attached.remove ssl).values.map Prod.snd).count session +
        if new = session then 1 else 0 :=
    s.attached.count_put Prod.snd session (ssl, new)
  have hremove := s.attached.count_remove Prod.snd session ssl
  omega

theorem references_remove (h : Booked s.cache.manager) (hcache : s'.cache = s.cache) {ssl : Ssl}
    (hattached : s'.attached = s.attached.remove ssl) (session : Session) :
    references s' session +
        (if (s.attached.find ssl).map Prod.snd = some session then 1 else 0) =
      references s session := by
  have h' : Booked s'.cache.manager := hcache ▸ h
  have hsame : h'.cache.values = h.cache.values := by
    change s'.cache.manager.sessions.map Prod.snd = s.cache.manager.sessions.map Prod.snd
    rw [hcache]
  rw [references_eq h', references_eq h, hsame, hattached]
  have hremove := s.attached.count_remove Prod.snd session ssl
  omega

theorem references_onCache (h : Booked s.cache.manager) {a : Action}
    (hstep : onCache s a = some s') :
    Booked s'.cache.manager ∧ ∀ session, references s' session =
      (s.attached.values.map Prod.snd).count session +
        ((h.cache.step a).values.map SessionData.session).count session := by
  obtain ⟨h', hvalues, hattached, -⟩ := onCache_booked h hstep
  refine ⟨h', ?_⟩
  intro session
  rw [references_eq h', hattached, hvalues]

theorem references_of_step (h : Booked s.cache.manager) {e : Event} (hstep : step s e = some s') :
    Booked s'.cache.manager ∧ ∀ session, references s session ≤
      references s' session + if released s e = some session then 1 else 0 := by
  cases e with
  | newSession ssl =>
      rw [step] at hstep
      split at hstep
      · obtain rfl := Option.some.inj hstep
        refine ⟨h, fun session => ?_⟩
        have hput := @references_put s
          { s with
            attached := s.attached.put (ssl, s.sessions)
            sessions := s.sessions + 1 } h rfl ssl s.sessions rfl session
        rw [released]
        omega
      · contradiction
  | store ssl hostname ipPort loop timerId =>
      obtain ⟨⟨owner, new⟩, -, hcache⟩ := Option.bind_eq_some_iff.mp hstep
      obtain ⟨h', hafter⟩ := references_onCache h hcache
      refine ⟨h', fun session => ?_⟩
      rw [hafter, references_eq h, released, cached_eq h]
      have hput := h.cache.count_put SessionData.session session
        ⟨new, toKey hostname ipPort, timerId, loop⟩
      have hremove := h.cache.count_remove SessionData.session session (toKey hostname ipPort)
      simp only [Cache.step] at hput hremove ⊢
      omega
  | removeExcessSession =>
      obtain ⟨h', hafter⟩ := references_onCache h hstep
      refine ⟨h', fun session => ?_⟩
      have hlength : h.cache.values.length = s.cache.manager.sessions.length := List.length_map _
      have hlast : s.cache.manager.sessions.getLast?.map (fun (_, data) => data.session) =
          h.cache.values.getLast?.map SessionData.session := by
        change _ = (s.cache.manager.sessions.map Prod.snd).getLast?.map _
        rw [List.getLast?_map, Option.map_map]
        rfl
      rw [hafter, references_eq h, released, hlast, ← hlength]
      have hdrop := h.cache.count_dropOldest SessionData.session session
      simp only [Cache.step, Cache.removeExcess]
      split
      · omega
      · omega
  | expire key =>
      obtain ⟨h', hafter⟩ := references_onCache h hstep
      refine ⟨h', fun session => ?_⟩
      rw [hafter, references_eq h, released, cached_eq h]
      have hremove := h.cache.count_remove SessionData.session session key
      simp only [Cache.step]
      omega
  | get ssl hostname ipPort =>
      rw [step] at hstep
      split at hstep
      · obtain ⟨found, -, rfl⟩ := Option.map_eq_some_iff.mp hstep
        rcases found with _ | found
        · exact ⟨h, fun session => Nat.le_add_right _ _⟩
        · exact ⟨h, fun session => Nat.le_add_right _ _⟩
      · contradiction
  | SSL_set_session ssl =>
      obtain ⟨⟨owner, new⟩, hoffer, hset⟩ := Option.bind_eq_some_iff.mp hstep
      simp only at hset
      split at hset
      · obtain rfl := Option.some.inj hset
        refine ⟨h, fun session => ?_⟩
        have hput := @references_put s
          { s with
            attached := s.attached.put (ssl, new)
            offered := s.offered.remove ssl } h rfl ssl new rfl session
        rw [released]
        split <;> rename_i hsame
        · -- The object has a reference to the session that it is given.
          rw [hsame, hoffer] at hput
          simp only [Option.map_some, Option.some.injEq] at hput
          omega
        · omega
      · contradiction
  | SSL_free ssl =>
      rw [step] at hstep
      split at hstep
      · obtain rfl := Option.some.inj hstep
        refine ⟨h, fun session => ?_⟩
        have hremove := @references_remove s { s with attached := s.attached.remove ssl } h rfl ssl
          rfl session
        rw [released]
        omega
      · contradiction

theorem offered_of_step (h : Booked s.cache.manager) {e : Event} (hstep : step s e = some s')
    {offer : Ssl × Session} (hmem : offer ∈ s'.offered.values) :
    offer ∈ s.offered.values ∨ s'.cache = s.cache ∧
      ∃ data ∈ h.cache.values, data.session = offer.2 := by
  cases e with
  | newSession ssl =>
      rw [step] at hstep
      split at hstep
      · obtain rfl := Option.some.inj hstep
        exact Or.inl hmem
      · contradiction
  | store ssl hostname ipPort loop timerId =>
      obtain ⟨found, -, hcache⟩ := Option.bind_eq_some_iff.mp hstep
      obtain ⟨-, -, -, hoffered⟩ := onCache_booked h hcache
      exact Or.inl (hoffered ▸ hmem)
  | removeExcessSession =>
      obtain ⟨-, -, -, hoffered⟩ := onCache_booked h hstep
      exact Or.inl (hoffered ▸ hmem)
  | expire key =>
      obtain ⟨-, -, -, hoffered⟩ := onCache_booked h hstep
      exact Or.inl (hoffered ▸ hmem)
  | get ssl hostname ipPort =>
      rw [step] at hstep
      split at hstep
      · rw [h.get] at hstep
        obtain ⟨found, hfound, rfl⟩ := Option.map_eq_some_iff.mp hstep
        rcases found with _ | session
        · exact Or.inl hmem
        · obtain ⟨data, hdata, rfl⟩ := Option.map_eq_some_iff.mp (Option.some.inj hfound)
          rcases List.mem_cons.mp hmem with rfl | hmem
          · exact Or.inr ⟨rfl, data, (KeyedList.find_eq_some_iff.mp hdata).1, rfl⟩
          · exact Or.inl (List.mem_of_mem_filter hmem)
      · contradiction
  | SSL_set_session ssl =>
      obtain ⟨⟨owner, new⟩, hoffer, hset⟩ := Option.bind_eq_some_iff.mp hstep
      simp only at hset
      split at hset
      · obtain rfl := Option.some.inj hset
        exact Or.inl (List.mem_of_mem_filter hmem)
      · contradiction
  | SSL_free ssl =>
      rw [step] at hstep
      split at hstep
      · obtain rfl := Option.some.inj hstep
        exact Or.inl hmem
      · contradiction

end Steps

/-- What has been handed out is alive. -/
structure Alive (s : Process) : Prop where
  booked : Booked s.cache.manager
  offered : ∀ offer ∈ s.offered.values, 0 < references s offer.2

theorem init_alive : Alive init := ⟨init_booked, by simp [init, KeyedList.empty]⟩

theorem step_alive {s s' : Process} (h : Alive s) {e : Event} (hkeeps : KeepsOffered s e)
    (hstep : step s e = some s') : Alive s' := by
  obtain ⟨hbooked, hreferences⟩ := references_of_step h.booked hstep
  refine ⟨hbooked, fun offer hmem => ?_⟩
  rcases offered_of_step h.booked hstep hmem with hmem | ⟨hcache, data, hdata, hsession⟩
  · have hbefore := h.offered offer hmem
    have hlost := hreferences offer.2
    split at hlost <;> rename_i hreleased
    · have hmore := hkeeps offer hmem hreleased
      omega
    · omega
  · -- The manager has a reference to what it hands out.
    have hsame : hbooked.cache.values = h.booked.cache.values := by
      change s'.cache.manager.sessions.map Prod.snd = s.cache.manager.sessions.map Prod.snd
      rw [hcache]
    have hlisted : 0 < (hbooked.cache.values.map SessionData.session).count offer.2 := by
      rw [hsame, List.count_pos_iff, ← hsession]
      exact List.mem_map_of_mem hdata
    rw [references_eq hbooked]
    omega

/-- In a run whose steps leave a reference to each session that is handed out, the sessions that are
used are alive. -/
theorem allSteps_usesAlive {events : List Event} (h : AllSteps step KeepsOffered init events) :
    AllSteps step UsesAlive init events :=
  h.imp Alive (fun _ _ _ halive hkeeps => step_alive halive hkeeps)
    (fun _ _ halive _ offer hmem _ => halive.offered offer hmem) init_alive

def replacedBetween : List Event :=
  [.newSession 0, .store 0 (ascii "cooper") (ascii "1.2.3.4:443") 0 1, .removeExcessSession,
    .SSL_free 0, .newSession 2, .get 1 (ascii "cooper") (ascii "1.2.3.4:443"),
    .store 2 (ascii "cooper") (ascii "1.2.3.4:443") 1 2, .SSL_set_session 1]

theorem not_allSteps_usesAlive : ¬ ∀ events, AllSteps step UsesAlive init events := by
  intro h
  have hall := h replacedBetween
  revert hall
  decide

theorem allSteps_usesAlive_resumed :
    AllSteps step UsesAlive init [.newSession 0,
      .store 0 (ascii "cooper") (ascii "1.2.3.4:443") 0 1, .removeExcessSession,
      .get 1 (ascii "cooper") (ascii "1.2.3.4:443"), .SSL_free 0, .SSL_set_session 1] :=
  allSteps_usesAlive (by decide)

end Cooper.SessionLifetime
