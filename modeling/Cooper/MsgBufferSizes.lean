import Cooper.MsgBufferCalls

namespace Cooper.MsgBufferSizes

open Cooper.ByteOrder
open Cooper.MsgBuffer (Bytes)
open Cooper.MsgBufferCalls
open Cooper.MsgBufferQueue
open Cooper.MsgBufferVector
open Cooper.Region
open Cooper.StepRun

/-- What a drained buffer of initial length `n` may have as its size. -/
def bound (n : Nat) : Nat := max (2 * n) (n + 8)

section Conditions

variable {ι ε : Type*}

def Drains (s : ι → MsgBuffer) (i : ι) (call : Call ι ε) : Prop :=
  ∃ len, takes s call = some (i, len) ∧ readableBytes (s i) ≤ len

/-- Whichever call drains the buffer, its vector is small afterwards. -/
def GivesBack (ε : Type*) [DecidableEq ι] (host : Endian) (n : Nat) (i : ι) (s : ι → MsgBuffer) :
    Prop :=
  ∀ (call : Call ι ε) s', Drains s i call → step host s call = some s' →
    (s' i).buffer.length ≤ bound n

/-- `ensureWritableBytes` finds no room, also not in front of the readable bytes. -/
def Grows (b : MsgBuffer) (len : Nat) : Prop :=
  writableBytes b < len ∧ b.head + writableBytes b < len + kBufferOffset

/-- The same in `readFd`, for what the vector has had no room for. -/
def Overflows (b : MsgBuffer) (len : Nat) : Prop :=
  writableBytes b < len ∧ b.head < len - writableBytes b + kBufferOffset

/-- `addInFront` finds no room, and what it then holds is too much. -/
def Reallocates (n : Nat) (b : MsgBuffer) (len : Nat) : Prop :=
  b.head < len ∧ writableBytes b < len ∧ bound n < len + readableBytes b + kBufferOffset

def asks (s : ι → MsgBuffer) : Call ι ε → Option (ι × Nat)
  | .buffer (.append i data) => some (i, data.length)
  | .buffer (.appendLiteral i chars) => some (i, chars.length - 1)
  | .buffer (.appendBuffer i j) => some (i, readableBytes (s j))
  | .buffer (.ensureWritableBytes i len) => some (i, len)
  | .appendInt i v => some (i, v.width.bytes)
  | _ => none

def Enlarges (n : Nat) (i : ι) (s : ι → MsgBuffer) : Call ι ε → Prop
  | .buffer (.readFd j (.ok data)) => j = i ∧ Overflows (s i) data.length
  | .addInFront j data => j = i ∧ Reallocates n (s i) data.length
  | .addInFrontInt j v => j = i ∧ Reallocates n (s i) v.width.bytes
  | call => ∃ len, asks s call = some (i, len) ∧ Grows (s i) len

end Conditions

/-- The vector has the size that the buffer was built with, and that one is small. -/
structure Small (n : Nat) (b : MsgBuffer) : Prop where
  le_initCap : n ≤ b.initCap
  length_eq : b.buffer.length = b.initCap + kBufferOffset
  length_le : b.buffer.length ≤ bound n

structure Large (n : Nat) (b : MsgBuffer) : Prop where
  offset_le : kBufferOffset ≤ b.initCap
  length_eq : b.buffer.length = b.initCap + kBufferOffset
  bound_lt : bound n < b.buffer.length

def Splits (n : Nat) (enlarges : Prop) (b : MsgBuffer) : Prop :=
  (enlarges → Large n b) ∧ (¬enlarges → Small n b)

def Same (b b' : MsgBuffer) : Prop :=
  b'.initCap = b.initCap ∧ b'.buffer.length = b.buffer.length

section Sizes

variable {n : Nat} {b b' b₁ : MsgBuffer} {data : Bytes}

theorem Same.trans (h : Same b b₁) (h' : Same b₁ b') : Same b b' :=
  ⟨h'.1.trans h.1, h'.2.trans h.2⟩

theorem Small.of_same (h : Small n b) (hsame : Same b b') : Small n b' :=
  ⟨hsame.1 ▸ h.le_initCap, by rw [hsame.1, hsame.2, h.length_eq], hsame.2 ▸ h.length_le⟩

theorem Large.of_same (h : Large n b) (hsame : Same b b') : Large n b' :=
  ⟨hsame.1 ▸ h.offset_le, by rw [hsame.1, hsame.2, h.length_eq], hsame.2 ▸ h.bound_lt⟩

theorem Splits.of_same {p : Prop} (h : Splits n p b) (hsame : Same b b') : Splits n p b' :=
  ⟨fun hp => (h.1 hp).of_same hsame, fun hp => (h.2 hp).of_same hsame⟩

theorem small_newMsgBuffer (n : Nat) : Small n (newMsgBuffer n) := by
  have hlength : (newMsgBuffer n).buffer.length = n + kBufferOffset := List.length_replicate
  refine ⟨le_rfl, hlength, ?_⟩
  rw [hlength]
  exact Nat.le_max_right _ _

theorem same_write (h : write b data = some b') : Same b b' := by
  obtain ⟨buffer, hstore, rfl⟩ := Option.map_eq_some_iff.mp h
  exact ⟨rfl, length_store hstore⟩

theorem same_put (h : put b data = some b') : Same b b' := by
  obtain ⟨b₁, hwrite, rfl⟩ := Option.map_eq_some_iff.mp h
  have hsame := same_write hwrite
  exact hsame

theorem same_compact (h : compact b = some b') : Same b b' := by
  obtain ⟨buffer, hcopy, rfl⟩ := Option.map_eq_some_iff.mp h
  exact ⟨rfl, length_copy hcopy⟩

theorem large_grow (hn : kBufferOffset ≤ n) (h : Small n b) {len : Nat} (hgrow : grow b len = some b') :
    Large n b' := by
  have hnew : ∀ newLen, b.buffer.length * 2 ≤ newLen → Large n (newMsgBuffer newLen) := by
    intro newLen hle
    have hlength : (newMsgBuffer newLen).buffer.length = newLen + kBufferOffset :=
      List.length_replicate
    have hcap := h.le_initCap
    have hsize := h.length_eq
    refine ⟨?_, hlength, ?_⟩
    · change kBufferOffset ≤ newLen
      omega
    · rw [hlength, bound]
      simp only [kBufferOffset] at *
      omega
  refine (hnew _ ?_).of_same (same_put hgrow)
  split
  · exact le_rfl
  · rename_i hmore
    exact Nat.not_lt.mp hmore

theorem splits_ensured (hn : kBufferOffset ≤ n) (h : Small n b) {len : Nat}
    {f : MsgBuffer → Option MsgBuffer} (hf : ∀ b b', f b = some b' → Same b b')
    (hcall : (ensureWritableBytes b len).bind f = some b') : Splits n (Grows b len) b' := by
  obtain ⟨b₁, hensure, hrest⟩ := Option.bind_eq_some_iff.mp hcall
  apply Splits.of_same _ (hf b₁ b' hrest)
  rw [ensureWritableBytes] at hensure
  split at hensure
  · rename_i hroom
    obtain rfl := Option.some.inj hensure
    exact ⟨fun hgrows => absurd hgrows.1 (Nat.not_lt.mpr hroom), fun _ => h⟩
  · rename_i hfull
    split at hensure
    · rename_i hroom
      refine ⟨fun hgrows => absurd hgrows.2 (Nat.not_lt.mpr hroom), fun _ => ?_⟩
      exact h.of_same (same_compact hensure)
    · rename_i hless
      refine ⟨fun _ => large_grow hn h hensure, fun hgrows => ?_⟩
      exact absurd ⟨Nat.not_le.mp hfull, Nat.not_le.mp hless⟩ hgrows

theorem splits_append (hn : kBufferOffset ≤ n) (h : Small n b) (hcall : append b data = some b') :
    Splits n (Grows b data.length) b' :=
  splits_ensured hn h (fun _ _ => same_put) hcall

theorem splits_readFd {ε : Type*} (hn : kBufferOffset ≤ n) (h : Small n b)
    (hcall : readFd b (.ok data : Except ε Bytes) = some b') :
    Splits n (Overflows b data.length) b' := by
  rw [readFd] at hcall
  obtain ⟨-, hread⟩ := Option.ite_none_left_eq_some.mp hcall
  obtain ⟨b₁, hwrite, hrest⟩ := Option.bind_eq_some_iff.mp hread
  have hsame := same_write hwrite
  obtain ⟨buffer, -, rfl⟩ := Option.map_eq_some_iff.mp hwrite
  split at hrest
  · rename_i hfits
    obtain rfl := Option.some.inj hrest
    exact ⟨fun hover => absurd hover.1 (Nat.not_lt.mpr hfits), fun _ => h.of_same hsame⟩
  · rename_i hmore
    have hfull : Small n { b with buffer, tail := buffer.length } := h.of_same hsame
    have hgrows : Grows { b with buffer, tail := buffer.length }
        (data.drop (writableBytes b)).length ↔ Overflows b data.length := by
      rw [Grows, Overflows, List.length_drop]
      simp only [writableBytes]
      omega
    have hsplits := splits_append hn hfull hrest
    rwa [hgrows] at hsplits

theorem same_fillHead (h : fillHead b data = some b') : Same b b' := by
  obtain ⟨buffer, hstore, rfl⟩ := Option.map_eq_some_iff.mp h
  exact ⟨rfl, length_store hstore⟩

theorem same_moveBack (h : moveBack b data = some b') : Same b b' := by
  obtain ⟨moved, hcopy, hrest⟩ := Option.bind_eq_some_iff.mp h
  obtain ⟨buffer, hstore, rfl⟩ := Option.map_eq_some_iff.mp hrest
  exact ⟨rfl, (length_store hstore).trans (length_copy hcopy)⟩

theorem same_reallocate {newLen : Nat} (hnew : kBufferOffset ≤ newLen)
    (hroom : data.length + readableBytes b ≤ newLen)
    (h : ((append (newMsgBuffer newLen) data).bind fun newBuf => appendBuffer newBuf b) = some b') :
    Same (newMsgBuffer newLen) b' := by
  obtain ⟨b₁, happend, hbuffer⟩ := Option.bind_eq_some_iff.mp h
  have hwritable := writableBytes_newMsgBuffer newLen
  obtain ⟨b₂, hput, -, -, hwritable₂⟩ := put_spec (valid_newMsgBuffer hnew)
    (show data.length ≤ writableBytes (newMsgBuffer newLen) by omega)
  rw [append, ensureWritableBytes_newMsgBuffer (show data.length ≤ newLen by omega),
    Option.bind_some, hput] at happend
  obtain rfl := Option.some.inj happend
  rw [appendBuffer, ensureWritableBytes, if_pos (by omega), Option.bind_some] at hbuffer
  exact (same_put hput).trans (same_put hbuffer)

theorem splits_addInFront (hn : kBufferOffset ≤ n) (h : Small n b)
    (hcall : addInFront b data = some b') : Splits n (Reallocates n b data.length) b' := by
  rw [addInFront] at hcall
  split at hcall
  · rename_i hroom
    exact ⟨fun hre => absurd hre.1 (Nat.not_lt.mpr hroom), fun _ => h.of_same (same_fillHead hcall)⟩
  · rename_i hhead
    split at hcall
    · rename_i hroom
      refine ⟨fun hre => absurd hre.2.1 (Nat.not_lt.mpr hroom), fun _ => ?_⟩
      exact h.of_same (same_moveBack hcall)
    · rename_i hfull
      have hcap := h.le_initCap
      have hsize := h.length_eq
      have hle := h.length_le
      have hnew : ∀ newLen, b.initCap ≤ newLen → data.length + readableBytes b ≤ newLen →
          (bound n < newLen + kBufferOffset ↔ Reallocates n b data.length) →
          Same (newMsgBuffer newLen) b' → Splits n (Reallocates n b data.length) b' := by
        intro newLen hmore hroom hiff hsame
        have hlength : (newMsgBuffer newLen).buffer.length = newLen + kBufferOffset :=
          List.length_replicate
        refine Splits.of_same ⟨fun hre => ⟨?_, hlength, ?_⟩, fun hre => ⟨?_, hlength, ?_⟩⟩ hsame
        · exact hn.trans (hcap.trans hmore)
        · exact hlength ▸ hiff.mpr hre
        · exact hcap.trans hmore
        · exact hlength ▸ Nat.not_lt.mp fun hlt => hre (hiff.mp hlt)
      have hlong : b.head < data.length ∧ writableBytes b < data.length :=
        ⟨Nat.not_le.mp hhead, Nat.not_le.mp hfull⟩
      rw [reallocate] at hcall
      by_cases hless : data.length + readableBytes b < b.initCap
      · rw [if_pos hless] at hcall
        apply hnew b.initCap le_rfl hless.le _ (same_reallocate (hn.trans hcap) hless.le hcall)
        rw [Reallocates]
        omega
      · rw [if_neg hless] at hcall
        have hmore := Nat.not_lt.mp hless
        apply hnew _ hmore le_rfl _ (same_reallocate (hn.trans (hcap.trans hmore)) le_rfl hcall)
        exact ⟨fun hlt => ⟨hlong.1, hlong.2, hlt⟩, fun hre => hre.2.2⟩

theorem same_retrieve (hn : kBufferOffset ≤ n) (h : Small n b) (len : Nat) :
    Same b (retrieve b len) := by
  have hcap := h.le_initCap
  have hsize := h.length_eq
  rw [retrieve]
  split
  · rw [retrieveAll, if_neg (by omega)]
    exact ⟨rfl, rfl⟩
  · exact ⟨rfl, rfl⟩

end Sizes

section Asks

variable {ι ε : Type*} {s : ι → MsgBuffer} {i j : ι} {call : Call ι ε}

theorem asks_iff {len : Nat} (hasks : asks s call = some (j, len)) :
    (∃ len, asks s call = some (i, len) ∧ Grows (s i) len) ↔ j = i ∧ Grows (s i) len := by
  rw [hasks]
  constructor
  · rintro ⟨len', heq, hgrows⟩
    obtain ⟨rfl, rfl⟩ := Prod.mk.inj (Option.some.inj heq)
    exact ⟨rfl, hgrows⟩
  · rintro ⟨rfl, hgrows⟩
    exact ⟨len, rfl, hgrows⟩

theorem not_enlarges_of_asks (hasks : asks s call = none) :
    ¬∃ len, asks s call = some (i, len) ∧ Grows (s i) len := by
  rintro ⟨len, hsome, -⟩
  exact absurd (hasks.symm.trans hsome) (by simp)

theorem not_enlarges_of_takes {n : Nat} {taken : ι × Nat} (htakes : takes s call = some taken) :
    ¬Enlarges n i s call := by
  cases call with
  | buffer op =>
      cases op <;> first
        | exact not_enlarges_of_asks rfl
        | exact absurd htakes (by simp [takes])
  | readInt j width => exact not_enlarges_of_asks rfl
  | _ => exact absurd htakes (by simp [takes])

end Asks

section Steps

variable {ι ε : Type*} [DecidableEq ι] {host : Endian} {s s' : ι → MsgBuffer} {n : Nat} {i : ι}

theorem splits_of_not {p : Prop} {b : MsgBuffer} (hp : ¬p) (h : Small n b) : Splits n p b :=
  ⟨fun hyes => absurd hyes hp, fun _ => h⟩

theorem splits_update {j : ι} {p q : Prop} {b : MsgBuffer} (h : Small n (s i))
    (hiff : q ↔ j = i ∧ p) (hsplits : j = i → Splits n p b) :
    Splits n q (Function.update s j b i) := by
  rw [hiff]
  by_cases hsame : j = i
  · obtain rfl := hsame
    rw [Function.update_self]
    exact ⟨fun hboth => (hsplits rfl).1 hboth.2, fun hnot => (hsplits rfl).2 fun hp => hnot ⟨rfl, hp⟩⟩
  · rw [Function.update_of_ne (Ne.symm hsame)]
    exact splits_of_not (fun hboth => hsame hboth.1) h

theorem splits_same {j : ι} {q : Prop} {b : MsgBuffer} (h : Small n (s i)) (hq : ¬q)
    (hsame : j = i → Same (s j) b) : Splits n q (Function.update s j b i) := by
  refine splits_update (p := q) h ⟨fun hyes => absurd hyes hq, fun hboth => hboth.2⟩ ?_
  rintro rfl
  exact splits_of_not hq (h.of_same (hsame rfl))

theorem op_splits (hn : kBufferOffset ≤ n) (h : Small n (s i)) {op : BufferOp ι ε}
    (htakes : takes s (.buffer op) = none)
    (hswap : ∀ j k, op = .swap j k → j = k ∨ j ≠ i ∧ k ≠ i)
    (hstep : step host s (.buffer op) = some s') :
    Splits n (Enlarges n i s (.buffer op)) (s' i) := by
  obtain ⟨result, hop, rfl⟩ := Option.map_eq_some_iff.mp hstep
  cases op with
  | append j data =>
      obtain ⟨b, hcall, rfl⟩ := Option.map_eq_some_iff.mp hop
      refine splits_update h (asks_iff rfl) ?_
      rintro rfl
      exact splits_append hn h hcall
  | appendLiteral j chars =>
      obtain ⟨b, hcall, rfl⟩ := Option.map_eq_some_iff.mp hop
      refine splits_update h (asks_iff rfl) ?_
      rintro rfl
      rw [appendLiteral] at hcall
      have hsplits := splits_append hn h (Option.ite_none_right_eq_some.mp hcall).2
      rwa [List.length_take, Nat.min_eq_left (Nat.sub_le _ _)] at hsplits
  | appendBuffer j k =>
      obtain ⟨b, hcall, rfl⟩ := Option.map_eq_some_iff.mp hop
      refine splits_update h (asks_iff rfl) ?_
      rintro rfl
      split at hcall
      · rename_i hself
        exact hself ▸ splits_ensured hn h (fun _ _ => same_put) hcall
      · exact splits_ensured hn h (fun _ _ => same_put) hcall
  | ensureWritableBytes j len =>
      obtain ⟨b, hcall, rfl⟩ := Option.map_eq_some_iff.mp hop
      refine splits_update h (asks_iff rfl) ?_
      rintro rfl
      refine splits_ensured hn h (f := some) (fun b b' hb => ?_) (by rwa [Option.bind_fun_some])
      exact Option.some.inj hb ▸ ⟨rfl, rfl⟩
  | hasWritten j data =>
      obtain ⟨b, hcall, rfl⟩ := Option.map_eq_some_iff.mp hop
      obtain ⟨b₁, hwrite, hwritten⟩ := Option.bind_eq_some_iff.mp hcall
      obtain ⟨-, hb⟩ := Option.ite_none_right_eq_some.mp hwritten
      obtain rfl := Option.some.inj hb
      have hsame := same_write hwrite
      exact splits_same h (not_enlarges_of_asks rfl) fun _ => hsame
  | unwrite j offset =>
      obtain ⟨b, hcall, rfl⟩ := Option.map_eq_some_iff.mp hop
      obtain ⟨-, hb⟩ := Option.ite_none_right_eq_some.mp hcall
      obtain rfl := Option.some.inj hb
      exact splits_same h (not_enlarges_of_asks rfl) fun _ => ⟨rfl, rfl⟩
  | swap j k =>
      obtain rfl := Option.some.inj hop
      refine splits_of_not (not_enlarges_of_asks rfl) ?_
      have hstays : Equiv.swap j k i = i := by
        rcases hswap j k rfl with rfl | ⟨hj, hk⟩
        · rw [Equiv.swap_self]
          rfl
        · exact Equiv.swap_apply_of_ne_of_ne hj.symm hk.symm
      change Small n (s (Equiv.swap j k i))
      rwa [hstays]
  | readFd j answer =>
      obtain ⟨b, hcall, rfl⟩ := Option.map_eq_some_iff.mp hop
      cases answer with
      | error e =>
          obtain rfl := Option.some.inj hcall
          exact splits_same h (not_enlarges_of_asks rfl) fun _ => ⟨rfl, rfl⟩
      | ok data =>
          refine splits_update h Iff.rfl ?_
          rintro rfl
          exact splits_readFd hn h hcall
  | _ => exact absurd htakes (by simp [takes])

theorem step_splits (hn : kBufferOffset ≤ n) (h : Small n (s i))
    {call : Call ι ε} (hswap : ∀ j k, call = .buffer (.swap j k) → j = k ∨ j ≠ i ∧ k ≠ i)
    (hstep : step host s call = some s') : Splits n (Enlarges n i s call) (s' i) := by
  cases htakes : takes s call with
  | some taken =>
      obtain rfl := Option.some.inj ((step_of_takes htakes (asserted_of_call hstep)).symm.trans hstep)
      refine splits_same h (not_enlarges_of_takes htakes) ?_
      rintro rfl
      exact same_retrieve hn h _
  | none =>
      cases call with
      | buffer op =>
          exact op_splits hn h htakes (fun j k hop => hswap j k (congrArg _ hop)) hstep
      | addInFront j data =>
          obtain ⟨b, hcall, rfl⟩ := Option.map_eq_some_iff.mp hstep
          refine splits_update h Iff.rfl ?_
          rintro rfl
          exact splits_addInFront hn h hcall
      | appendInt j v =>
          obtain ⟨b, hcall, rfl⟩ := Option.map_eq_some_iff.mp hstep
          refine splits_update h (asks_iff rfl) ?_
          rintro rfl
          rw [appendInt_eq] at hcall
          exact length_wireBytes host v ▸ splits_append hn h hcall
      | addInFrontInt j v =>
          obtain ⟨b, hcall, rfl⟩ := Option.map_eq_some_iff.mp hstep
          refine splits_update h Iff.rfl ?_
          rintro rfl
          rw [addInFrontInt_eq] at hcall
          exact length_wireBytes host v ▸ splits_addInFront hn h hcall
      | readInt j width => exact absurd htakes (by simp [takes])

theorem givesBack_of_small (hn : kBufferOffset ≤ n) (h : Small n (s i)) :
    GivesBack ε host n i s := by
  rintro call s' ⟨len, htakes, -⟩ hstep
  obtain rfl := Option.some.inj ((step_of_takes htakes (asserted_of_call hstep)).symm.trans hstep)
  rw [Function.update_self]
  exact (h.of_same (same_retrieve hn h len)).length_le

theorem not_givesBack_of_large (h : Large n (s i)) : ¬GivesBack ε host n i s := by
  intro hgives
  have hcap := h.offset_le
  have hsize := h.length_eq
  have hdrained := hgives (.buffer (.retrieveAll i)) _ ⟨_, rfl, le_rfl⟩ rfl
  change (Function.update s i (retrieveAll (s i)) i).buffer.length ≤ bound n at hdrained
  rw [Function.update_self, retrieveAll, if_neg (by omega)] at hdrained
  exact Nat.not_lt.mpr hdrained h.bound_lt

theorem keeps_iff (hn : kBufferOffset ≤ n) (hvalid : ∀ j, Valid (s j)) (h : Small n (s i))
    {call : Call ι ε} (hasserted : Asserted s call)
    (hswap : ∀ j k, call = .buffer (.swap j k) → j = k ∨ j ≠ i ∧ k ≠ i) :
    (∀ s', step host s call = some s' → GivesBack ε host n i s') ↔ ¬Enlarges n i s call := by
  constructor
  · intro hgives henlarges
    have hsome : ∃ s', step host s call = some s' := exists_step hvalid hasserted
    obtain ⟨s', hstep⟩ := hsome
    exact not_givesBack_of_large ((step_splits hn h hswap hstep).1 henlarges) (hgives s' hstep)
  · intro hsmall s' hstep
    exact givesBack_of_small hn ((step_splits hn h hswap hstep).2 hsmall)

/-- In every sequence of calls on new buffers, each call within its precondition, a buffer that is
not swapped with another gives its memory back whenever it is drained, if and only if it has never
needed a larger vector. -/
theorem givesBack_run_iff (host : Endian) (cap : ι → Nat) (hcap : ∀ j, kBufferOffset ≤ cap j) (i : ι)
    (calls : List (Call ι ε))
    (hasserted : AllSteps (step host) Asserted (fun j => newMsgBuffer (cap j)) calls)
    (hswap : ∀ j k, .buffer (.swap j k) ∈ calls → j = k ∨ j ≠ i ∧ k ≠ i) :
    GivesBack ε host (cap i) i (fun j => newMsgBuffer (cap j)) ∧
        AllSteps (step host)
          (fun s call => ∀ s', step host s call = some s' → GivesBack ε host (cap i) i s')
          (fun j => newMsgBuffer (cap j)) calls ↔
      AllSteps (step host) (fun s call => ¬Enlarges (cap i) i s call)
        (fun j => newMsgBuffer (cap j)) calls := by
  have hnew : (∀ j, Valid (newMsgBuffer (cap j))) ∧ Small (cap i) (newMsgBuffer (cap i)) :=
    ⟨fun j => valid_newMsgBuffer (hcap j), small_newMsgBuffer (cap i)⟩
  have hapart : AllSteps (step host)
      (fun _ call => ∀ j k, call = .buffer (.swap j k) → j = k ∨ j ≠ i ∧ k ≠ i)
      (fun j => newMsgBuffer (cap j)) calls := by
    apply allSteps_of_forall
    rintro call hmem - j k rfl
    exact hswap j k hmem
  have hgiven := hasserted.and hapart
  constructor
  · rintro ⟨-, hgives⟩
    refine AllSteps.imp (fun s => (∀ j, Valid (s j)) ∧ Small (cap i) (s i)) ?_ ?_ hnew
      (hgiven.and hgives)
    · rintro s call s' ⟨hvalid, hsmall⟩ ⟨⟨hcall, hother⟩, hkeeps⟩ hstep
      have hnot := (keeps_iff (hcap i) hvalid hsmall hcall hother).mp hkeeps
      exact ⟨step_valid hvalid hstep, (step_splits (hcap i) hsmall hother hstep).2 hnot⟩
    · rintro s call ⟨hvalid, hsmall⟩ ⟨⟨hcall, hother⟩, hkeeps⟩
      exact (keeps_iff (hcap i) hvalid hsmall hcall hother).mp hkeeps
  · intro hnever
    refine ⟨givesBack_of_small (hcap i) hnew.2, ?_⟩
    refine AllSteps.imp (fun s => (∀ j, Valid (s j)) ∧ Small (cap i) (s i)) ?_ ?_ hnew
      (hgiven.and hnever)
    · rintro s call s' ⟨hvalid, hsmall⟩ ⟨⟨-, hother⟩, hnot⟩ hstep
      exact ⟨step_valid hvalid hstep, (step_splits (hcap i) hsmall hother hstep).2 hnot⟩
    · rintro s call ⟨hvalid, hsmall⟩ ⟨⟨hcall, hother⟩, hnot⟩
      exact (keeps_iff (hcap i) hvalid hsmall hcall hother).mpr hnot

def compactAndDrain : List (Call Unit Unit) :=
  [.buffer (.append () [1, 2, 3, 4, 5, 6]), .buffer (.read () 4), .appendInt () (.int32 7),
    .addInFrontInt () (.int8 8), .buffer (.retrieveAll ())]

theorem givesBack_run_iff_compactAndDrain :
    GivesBack Unit .little 8 () (fun _ => newMsgBuffer 8) ∧
        AllSteps (step .little)
          (fun s call => ∀ s', step .little s call = some s' → GivesBack Unit .little 8 () s')
          (fun _ => newMsgBuffer 8) compactAndDrain ↔
      AllSteps (step .little) (fun s call => ¬Enlarges 8 () s call) (fun _ => newMsgBuffer 8)
        compactAndDrain :=
  givesBack_run_iff .little (fun _ => 8) (fun _ => le_rfl) () compactAndDrain
    ⟨trivial, fun _ _ => ⟨trivial, fun _ _ => ⟨trivial, fun _ _ => ⟨trivial, fun _ _ =>
      ⟨trivial, fun _ _ => trivial⟩⟩⟩⟩⟩
    fun _ _ _ => .inl rfl

/-- A vector for nine bytes more than doubles, and drained it keeps its forty bytes. -/
theorem not_givesBack_append :
    ∃ s s', step .little (fun _ => newMsgBuffer 8)
        (.buffer (.append () [1, 2, 3, 4, 5, 6, 7, 8, 9]) : Call Unit Unit) = some s ∧
      Drains s () (.buffer (.retrieveAll ()) : Call Unit Unit) ∧
      step .little s (.buffer (.retrieveAll ()) : Call Unit Unit) = some s' ∧
      (s' ()).buffer.length = 40 ∧ bound 8 = 16 := by
  obtain ⟨s, hs⟩ := Option.isSome_iff_exists.mp
    (by decide : (step .little (fun _ => newMsgBuffer 8)
      (.buffer (.append () [1, 2, 3, 4, 5, 6, 7, 8, 9]) : Call Unit Unit)).isSome = true)
  have hlength : (step .little (fun _ => newMsgBuffer 8)
      (.buffer (.append () [1, 2, 3, 4, 5, 6, 7, 8, 9]) : Call Unit Unit)).map
        (fun s => (retrieveAll (s ())).buffer.length) = some 40 := by decide
  rw [hs, Option.map_some, Option.some.injEq] at hlength
  exact ⟨s, _, hs, ⟨_, rfl, le_rfl⟩, rfl, hlength, by decide⟩

end Steps

end Cooper.MsgBufferSizes
