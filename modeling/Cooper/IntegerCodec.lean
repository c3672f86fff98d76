import Cooper.MsgBufferCalls

namespace Cooper.IntegerCodec

open Cooper.ByteOrder
open Cooper.MsgBuffer (Bytes)
open Cooper.MsgBufferCalls
open Cooper.MsgBufferQueue
open Cooper.MsgBufferVector
open Cooper.Region
open Cooper.StepRun

def toNat : IntValue → Nat
  | .int8 b => b.toNat
  | .int16 s => s.toNat
  | .int32 i => i.toNat
  | .int64 l => l.toNat

def wire (v : IntValue) : Bytes := bigEndian v.width.bytes (toNat v)

def appendInts (host : Endian) (b : MsgBuffer) (vs : List IntValue) : Option MsgBuffer :=
  vs.foldlM (appendInt host) b

def readInts (host : Endian) : MsgBuffer → List IntWidth → Option (MsgBuffer × List IntValue)
  | b, [] => some (b, [])
  | b, width :: widths => (readInt host b width).bind fun r =>
      (readInts host r.1 widths).map fun rest => (rest.1, r.2 :: rest.2)

section Values

variable (host : Endian)

theorem toNat_htons (s : UInt16) : (htons host s).toNat = toNetwork host 2 s.toNat :=
  UInt16.toNat_ofNat_of_lt' (toNetwork_lt host s.toNat_lt)

theorem toNat_htonl (i : UInt32) : (htonl host i).toNat = toNetwork host 4 i.toNat :=
  UInt32.toNat_ofNat_of_lt' (toNetwork_lt host i.toNat_lt)

theorem toNat_hton64 (l : UInt64) : (hton64 host l).toNat = toNetwork host 8 l.toNat := by
  cases host with
  | little => exact UInt64.toNat_ofNat_of_lt' (toNetwork_lt .little l.toNat_lt)
  | big =>
      have hsig : (toMemory .big 4 1).head? = some 0 := by decide
      rw [hton64, if_pos hsig]
      rfl

theorem ntohs_htons (s : UInt16) : ntohs host (htons host s) = s := by
  apply UInt16.toNat_inj.mp
  rw [ntohs, toNat_htons, toNat_htons]
  exact toNetwork_toNetwork host s.toNat_lt

theorem ntohl_htonl (i : UInt32) : ntohl host (htonl host i) = i := by
  apply UInt32.toNat_inj.mp
  rw [ntohl, toNat_htonl, toNat_htonl]
  exact toNetwork_toNetwork host i.toNat_lt

theorem ntoh64_hton64 (l : UInt64) : ntoh64 host (hton64 host l) = l := by
  apply UInt64.toNat_inj.mp
  rw [ntoh64, toNat_hton64, toNat_hton64]
  exact toNetwork_toNetwork host l.toNat_lt

theorem wireBytes_eq (v : IntValue) : wireBytes host v = wire v := by
  cases v with
  | int8 b => cases host <;> rfl
  | int16 s => rw [wireBytes, toNat_htons, toMemory_toNetwork]; rfl
  | int32 i => rw [wireBytes, toNat_htonl, toMemory_toNetwork]; rfl
  | int64 l => rw [wireBytes, toNat_hton64, toMemory_toNetwork]; rfl

theorem length_wire (v : IntValue) : (wire v).length = v.width.bytes := length_bigEndian _ _

theorem valueOf_wire (v : IntValue) : valueOf host v.width (ofMemory host (wire v)) = v := by
  rw [← wireBytes_eq host]
  cases v with
  | int8 b =>
      rw [wireBytes, ofMemory_toMemory host b.toNat_lt]
      exact congrArg IntValue.int8 (UInt8.ofNat_toNat)
  | int16 s =>
      rw [wireBytes, ofMemory_toMemory host (htons host s).toNat_lt]
      exact congrArg IntValue.int16 (by rw [UInt16.ofNat_toNat, ntohs_htons])
  | int32 i =>
      rw [wireBytes, ofMemory_toMemory host (htonl host i).toNat_lt]
      exact congrArg IntValue.int32 (by rw [UInt32.ofNat_toNat, ntohl_htonl])
  | int64 l =>
      rw [wireBytes, ofMemory_toMemory host (hton64 host l).toNat_lt]
      exact congrArg IntValue.int64 (by rw [UInt64.ofNat_toNat, ntoh64_hton64])

end Values

section Buffer

variable {b : MsgBuffer}

theorem appendInt_spec (host : Endian) (h : Valid b) (v : IntValue) :
    ∃ b', appendInt host b v = some b' ∧ Valid b' ∧ readable b' = readable b ++ wire v := by
  obtain ⟨b', happend, hvalid, hreadable⟩ := append_spec h (wireBytes host v)
  refine ⟨b', by rw [appendInt_eq, happend], hvalid, ?_⟩
  rw [hreadable, MsgBuffer.append_eq, wireBytes_eq]

theorem appendInts_spec (host : Endian) (h : Valid b) (vs : List IntValue) :
    ∃ b', appendInts host b vs = some b' ∧ Valid b' ∧
      readable b' = readable b ++ vs.flatMap wire := by
  induction vs generalizing b with
  | nil => exact ⟨b, rfl, h, by rw [List.flatMap_nil, List.append_nil]⟩
  | cons v vs ih =>
      obtain ⟨b₁, happend, hvalid₁, hreadable₁⟩ := appendInt_spec host h v
      obtain ⟨b', hrest, hvalid', hreadable'⟩ := ih hvalid₁
      refine ⟨b', ?_, hvalid', ?_⟩
      · rw [appendInts, List.foldlM_cons, happend]
        exact hrest
      · rw [hreadable', hreadable₁, List.append_assoc, List.flatMap_cons]

theorem readInt_spec (host : Endian) (h : Valid b) {v : IntValue} {rest : Bytes}
    (hreadable : readable b = wire v ++ rest) :
    ∃ b', readInt host b v.width = some (b', v) ∧ Valid b' ∧ readable b' = rest := by
  have hlength := length_readable h
  rw [hreadable, List.length_append, length_wire] at hlength
  have hwidth : v.width.bytes ≤ readableBytes b := by omega
  have hpeek : peekBytes b v.width.bytes = wire v := by
    rw [peekBytes_eq h hwidth, hreadable]
    exact List.take_left' (length_wire v)
  obtain ⟨hvalid, hretrieve⟩ := retrieve_spec h v.width.bytes
  refine ⟨_, ?_, hvalid, ?_⟩
  · rw [readInt_eq, if_pos hwidth, hpeek, valueOf_wire]
  · rw [hretrieve, hreadable, MsgBuffer.retrieve_eq]
    exact List.drop_left' (length_wire v)

theorem readInts_spec (host : Endian) (h : Valid b) {vs : List IntValue} {rest : Bytes}
    (hreadable : readable b = vs.flatMap wire ++ rest) :
    ∃ b', readInts host b (vs.map IntValue.width) = some (b', vs) ∧ Valid b' ∧
      readable b' = rest := by
  induction vs generalizing b with
  | nil => exact ⟨b, rfl, h, hreadable⟩
  | cons v vs ih =>
      rw [List.flatMap_cons, List.append_assoc] at hreadable
      obtain ⟨b₁, hread, hvalid₁, hreadable₁⟩ := readInt_spec host h hreadable
      obtain ⟨b', hrest, hvalid', hreadable'⟩ := ih hvalid₁ hreadable₁
      refine ⟨b', ?_, hvalid', hreadable'⟩
      rw [List.map_cons, readInts, hread, Option.bind_some, hrest]
      rfl

end Buffer

section Runs

variable {ι ε : Type*} [DecidableEq ι]

/-- In every state of buffers with a capacity of at least eight, on machines of either byte order:
integers that are appended to an empty buffer lie there in network byte order and are read back, and
one that is put into the room at the head is read back with the other bytes unchanged. -/
theorem readInts_appendInts (host : Endian) (cap : ι → Nat) (hcap : ∀ i, kBufferOffset ≤ cap i)
    (calls : List (Call ι ε)) (s : ι → MsgBuffer)
    (hrun : runSteps (step host) (fun i => newMsgBuffer (cap i)) calls = some s) (i : ι) :
    (readable (s i) = [] → ∀ vs, ∃ b b', appendInts host (s i) vs = some b ∧
      readable b = vs.flatMap wire ∧
      readInts host b (vs.map IntValue.width) = some (b', vs) ∧ readable b' = []) ∧
    ∀ v : IntValue, v.width.bytes ≤ (s i).head → ∃ b b', addInFrontInt host (s i) v = some b ∧
      readable b = wire v ++ readable (s i) ∧
      readInt host b v.width = some (b', v) ∧ readable b' = readable (s i) := by
  have hvalid := valid_of_run hcap hrun i
  constructor
  · intro hempty vs
    obtain ⟨b, happend, hb, hwire⟩ := appendInts_spec host hvalid vs
    rw [hempty, List.nil_append] at hwire
    obtain ⟨b', hread, -, hrest⟩ := readInts_spec host hb
      (hwire.trans (List.append_nil _).symm)
    exact ⟨b, b', happend, hwire, hread, hrest⟩
  · intro v hroom
    rw [← length_wire, ← wireBytes_eq host] at hroom
    obtain ⟨b, hfront, hb, hreadable, -⟩ := headRoom_spec hvalid hroom
    rw [wireBytes_eq] at hreadable
    obtain ⟨b', hread, -, hrest⟩ := readInt_spec host hb hreadable
    exact ⟨b, b', by rw [addInFrontInt_eq, hfront], hreadable, hread, hrest⟩

theorem readInts_appendInts_eleven :
    ∃ b b', appendInts .little (newMsgBuffer 8) [.int16 1, .int64 513, .int8 255] = some b ∧
      readable b = [IntValue.int16 1, .int64 513, .int8 255].flatMap wire ∧
      readInts .little b ([IntValue.int16 1, .int64 513, .int8 255].map IntValue.width) =
        some (b', [.int16 1, .int64 513, .int8 255]) ∧ readable b' = [] :=
  (readInts_appendInts (ε := Unit) .little (fun _ : Unit => 8) (fun _ => le_rfl) [] _ rfl ()).1
    (readable_newMsgBuffer 8) _

example : [IntValue.int16 1, .int64 513, .int8 255].flatMap wire =
    [0, 1, 0, 0, 0, 0, 0, 0, 2, 1, 255] := by decide

end Runs

end Cooper.IntegerCodec
