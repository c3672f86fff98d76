import Cooper.SendOrder
import Cooper.TlsPlaintext

namespace Cooper.StartEncryption

open Cooper.MsgBuffer
open Cooper.TcpConnectionImpl (Kernel Connection SendCall)
open Cooper.Tls
open Cooper.TlsPlaintext (TlsOp)
open Cooper.WriteQueue (payload accepted pending pending_eq)
open Cooper.SendOrder (System Action runActions opened)

variable {π : Type*} (P : TLSProvider π)

/-- `startEncryption` with a `provider` that has sent its first flight. `*fileBufferPtr_` can hold
no more than what is left of a stream's chunk. -/
def startEncryption (c : Connection) (provider : π) : TlsConnection π where
  conn := c
  provider
  plaintext := []
  fileBufferUse := .stream

/-- A callback of the loop thread calls `startEncryption`. In `writeCompleteCallback_`, the end of
`writeCallback` follows. -/
def upgrade (s : System) (provider : π) : Option (TlsConnection π) :=
  let t := startEncryption s.conn provider
  match s.loop with
  | .idle => some t
  | .completing =>
      let t := if t.conn.status = .Disconnecting then
          { t with conn := TcpConnectionImpl.closeWrite t.conn }
        else t
      some (checkCloseOnEmpty P t)
  | .sent | .pushed | .counted => none

/-- The payloads of the calls `before` the upgrade are what has been written in clear. -/
def InClear (before : List SendCall) (t : TlsConnection π) : Prop :=
  t.conn.socket.written = (before.map payload).flatten

instance (before : List SendCall) (t : TlsConnection π) : Decidable (InClear before t) :=
  inferInstanceAs (Decidable (_ = _))

/-- What has been sent `before` is in clear, and the provider has been given the beginning of what
has been sent since. -/
def Separated (before : List SendCall) (t : TlsConnection π) : Prop :=
  InClear before t ∧
  ∃ later, accepted t.conn = (before.map payload).flatten ++ later ∧
    TlsPlaintext.output t <+: later

/-- Nothing is left of the calls that have been made, in the connection or in the loop. -/
def Drained (s : System) : Prop :=
  pending s.conn = [] ∧ (s.conn.funcs.map payload).flatten = []

variable {P} {s : System} {t : TlsConnection π} {kernel : Kernel}

theorem written_append_waiting (h : SendOrder.Booked s) (hordered : SendOrder.Ordered s) :
    s.conn.socket.written ++ (pending s.conn ++ (s.conn.funcs.map payload).flatten) =
      (s.taken.map payload).flatten := by
  rw [← hordered.order, List.map_append, List.flatten_append, ← h.output_eq, WriteQueue.output,
    pending_eq (c := s.conn) h.sending.leftoverAtFront]
  simp only [List.append_assoc]

theorem written_eq_iff_drained (h : SendOrder.Booked s) (hordered : SendOrder.Ordered s) :
    s.conn.socket.written = (s.taken.map payload).flatten ↔ Drained s := by
  rw [← written_append_waiting h hordered, List.self_eq_append_right, List.append_eq_nil_iff, Drained]

theorem booked_startEncryption (h : SendOrder.Booked s) (hordered : SendOrder.Ordered s)
    (hloop : ¬(s.loop = .sent ∨ s.loop = .pushed)) (provider : π) :
    TlsPlaintext.Booked s.conn.socket.written (startEncryption s.conn provider) where
  sending := ⟨h.sending.connected, h.sending.notClosing, h.sending.nonempty, h.sending.alternating,
    h.sending.leftoverAtFront⟩
  sendNum := by
    have hsendNum := hordered.sendNum
    rwa [if_neg hloop, Nat.add_zero] at hsendNum
  clear_eq := rfl
  books := by
    intro _
    change s.conn.socket.written ++ (([] ++ (s.conn.fileBuffer ++
      (s.conn.writeBufferList.map WriteQueue.nodePending).flatten)) ++
      (s.conn.funcs.map payload).flatten) = accepted s.conn
    rw [List.nil_append, ← pending_eq (c := s.conn) h.sending.leftoverAtFront, h.accepted_eq]
    exact written_append_waiting h hordered

theorem booked_upgrade (h : SendOrder.Booked s) (hordered : SendOrder.Ordered s) {provider : π}
    (hupgrade : upgrade P s provider = some t) :
    TlsPlaintext.Booked s.conn.socket.written t := by
  unfold upgrade at hupgrade
  simp only at hupgrade
  split at hupgrade
  · rename_i hidle
    obtain rfl := Option.some.inj hupgrade
    exact booked_startEncryption h hordered (by simp [hidle]) provider
  · rename_i hcompleting
    have hbooked := booked_startEncryption h hordered (by simp [hcompleting]) provider
    rw [hbooked.sending.connected, if_neg (by decide),
      TlsPlaintext.checkCloseOnEmpty_eq hbooked.sending] at hupgrade
    obtain rfl := Option.some.inj hupgrade
    exact hbooked
  · exact absurd hupgrade (by simp)
  · exact absurd hupgrade (by simp)
  · exact absurd hupgrade (by simp)

/-- What has been sent before the upgrade is written in clear exactly when nothing is left of it at
the upgrade. As long as no stream is started from the bytes of a file, the provider is then given
nothing but what has been sent since. -/
theorem separated_iff_drained (hk : WriteQueue.OnlyEAGAIN kernel) (hP : TlsPlaintext.OnlyEAGAIN P)
    (highWaterMarkLen : Option Nat) (actions : List Action) (provider : π) (ops : List TlsOp) :
    ∃ s, runActions kernel (opened highWaterMarkLen) actions = some s ∧
      ∀ t₀, upgrade P s provider = some t₀ → ∃ t, TlsPlaintext.run P t₀ ops = some t ∧
        (InClear s.taken t ↔ Drained s) ∧
        (t.fileBufferUse ≠ .mixed → (Separated s.taken t ↔ Drained s)) := by
  obtain ⟨s, hrun, h⟩ := (SendOrder.booked_opened highWaterMarkLen).runActions hk actions
  have hordered := (SendOrder.ordered_opened highWaterMarkLen).runActions actions hrun
  refine ⟨s, hrun, fun t₀ hupgrade => ?_⟩
  obtain ⟨t, hrun', ht⟩ := (booked_upgrade h hordered hupgrade).run hP ops
  have hclear : InClear s.taken t ↔ Drained s := by
    rw [InClear, ht.clear_eq, written_eq_iff_drained h hordered]
  refine ⟨t, hrun', hclear, fun hclean => ?_⟩
  rw [← hclear, Separated]
  refine and_iff_left_of_imp fun hbefore => ?_
  refine ⟨TlsPlaintext.output t ++ (t.conn.funcs.map payload).flatten, ?_, List.prefix_append ..⟩
  rw [← hbefore, ht.clear_eq, ht.books hclean]

section PendingMessage

def fullKernel : Kernel := fun _ _ => .error .EAGAIN

theorem onlyEAGAIN_fullKernel : WriteQueue.OnlyEAGAIN fullKernel := by
  rintro calls len e ⟨⟩
  rfl

theorem separated_iff_drained_fullKernel :
    ∃ s, runActions fullKernel (opened none) [.call true (.send [1, 2])] = some s ∧
      ∀ t₀, upgrade TlsPlaintext.narrowProvider s () = some t₀ →
        ∃ t, TlsPlaintext.run TlsPlaintext.narrowProvider t₀ [.writeCallback []] = some t ∧
          (InClear s.taken t ↔ Drained s) ∧
          (t.fileBufferUse ≠ .mixed → (Separated s.taken t ↔ Drained s)) :=
  separated_iff_drained onlyEAGAIN_fullKernel TlsPlaintext.onlyEAGAIN_narrowProvider none _ () _

/-- A message that the socket has not taken goes to the provider. -/
theorem not_separated_fullKernel :
    ¬∀ actions ops s t₀ t, runActions fullKernel (opened none) actions = some s →
      upgrade TlsPlaintext.narrowProvider s () = some t₀ →
      TlsPlaintext.run TlsPlaintext.narrowProvider t₀ ops = some t → Separated s.taken t := by
  intro h
  obtain ⟨hclear, -⟩ := h [.call true (.send [1, 2])] [.writeCallback []] _ _ _ rfl rfl rfl
  exact absurd hclear (by decide)

end PendingMessage

end Cooper.StartEncryption
