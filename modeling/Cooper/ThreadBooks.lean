import Cooper.SendAfterClose
import Cooper.WriteQueue

namespace Cooper.ThreadBooks

open Cooper.ConnectionThread
open Cooper.MsgBuffer
open Cooper.OpenSSLProvider (OpenSSL)
open Cooper.SendAfterClose (isCall)
open Cooper.TcpConnectionImpl (BufferNode ConnEvent Connection Errno Kernel ReadResult SendCall
  appendMsg)
open Cooper.ThreadOutcome
open Cooper.WriteQueue (OnlyEAGAIN accepted appendMsg_cons_of_isFile appendMsg_pending eventPayload
  nodePending output payload sendfileInLoop_sent streamContent streamContent_cons writeInLoop_cases)

def framePayload : Frame → Bytes
  | .sendInLoop msg => msg
  | _ => []

def functorPayload : Functor → Bytes
  | .request (.call call) => payload call
  | _ => []

def AtStream (c : Connection) : Prop :=
  ∃ toSend chunks rest, c.writeBufferList = .stream toSend chunks :: rest ∧ toSend ≠ 0

structure Open (c : Connection) : Prop where
  connected : c.status = .Connected
  writable : c.socket.writeClosed = false
  front : c.fileBuffer ≠ [] → AtStream c

/-- `c'` has put `out` behind the output of `c`. -/
structure Puts (c : Connection) (out : Bytes) (c' : Connection) : Prop where
  stays : Open c'
  sendNum : c'.sendNum = c.sendNum
  accepted_eq : accepted c' = accepted c
  output_eq : output c' = output c ++ out

def KeepsFront (c c' : Connection) : Prop :=
  AtStream c → AtStream c' ∧ c'.fileBuffer = c.fileBuffer

section Puts

variable {c c' c'' : Connection} {out out' : Bytes}

theorem Open.puts_of_same (h : Open c) (hstatus : c'.status = c.status)
    (hsocket : c'.socket = c.socket) (hlist : c'.writeBufferList = c.writeBufferList)
    (hbuffer : c'.fileBuffer = c.fileBuffer) (hsendNum : c'.sendNum = c.sendNum)
    (haccepted : accepted c' = accepted c) :
    Puts c [] c' := by
  refine ⟨⟨hstatus.trans h.connected, ?_, ?_⟩, hsendNum, haccepted, ?_⟩
  · rw [hsocket]
    exact h.writable
  · unfold AtStream
    rw [hbuffer, hlist]
    exact h.front
  · simp only [output, hsocket, hlist, hbuffer, List.append_nil]

theorem Puts.refl (h : Open c) : Puts c [] c := h.puts_of_same rfl rfl rfl rfl rfl rfl

theorem Puts.trans (h : Puts c out c') (h' : Puts c' out' c'') : Puts c (out ++ out') c'' where
  stays := h'.stays
  sendNum := h'.sendNum.trans h.sendNum
  accepted_eq := h'.accepted_eq.trans h.accepted_eq
  output_eq := by rw [h'.output_eq, h.output_eq, List.append_assoc]

theorem accepted_log (c : Connection) (event : ConnEvent) :
    accepted (TcpConnectionImpl.log c event) = accepted c ++ eventPayload event := by
  simp [accepted, TcpConnectionImpl.log]

theorem Open.puts_log (h : Open c) {event : ConnEvent} (hevent : eventPayload event = []) :
    Puts c [] (TcpConnectionImpl.log c event) := by
  refine h.puts_of_same rfl rfl rfl rfl rfl ?_
  rw [accepted_log, hevent, List.append_nil]

theorem puts_checkHighWaterMark (h : Open c) :
    Puts c [] (TcpConnectionImpl.checkHighWaterMark c) := by
  unfold TcpConnectionImpl.checkHighWaterMark
  split
  · split
    · exact h.puts_log rfl
    · exact .refl h
  · exact .refl h

theorem puts_append (h : Open c) (data : Bytes) :
    Puts c data (TcpConnectionImpl.enableWriting
      { c with writeBufferList := appendMsg data c.writeBufferList }) := by
  refine ⟨⟨h.connected, h.writable, fun hbuffer => ?_⟩, rfl, rfl, ?_⟩
  · obtain ⟨toSend, chunks, rest, hlist, hpos⟩ := h.front hbuffer
    refine ⟨toSend, chunks, appendMsg data rest, ?_, hpos⟩
    simp only [TcpConnectionImpl.enableWriting, hlist]
    exact appendMsg_cons_of_isFile rfl data rest
  · simp [output, TcpConnectionImpl.enableWriting, appendMsg_pending]

theorem puts_queueInList (h : Open c) (data : Bytes) :
    Puts c data (TcpConnectionImpl.queueInList c data) := by
  unfold TcpConnectionImpl.queueInList
  split
  · have hqueued := puts_append h data
    simpa using hqueued.trans (puts_checkHighWaterMark hqueued.stays)
  · rename_i hskip
    have hnil : data = [] := by
      by_contra hne
      exact hskip ⟨List.length_pos_iff.mpr hne, h.connected⟩
    exact hnil ▸ .refl h

theorem keepsFront_queueInList (c : Connection) (data : Bytes) :
    KeepsFront c (TcpConnectionImpl.queueInList c data) := by
  rintro ⟨toSend, chunks, rest, hlist, hpos⟩
  unfold TcpConnectionImpl.queueInList TcpConnectionImpl.checkHighWaterMark
  have happend : appendMsg data c.writeBufferList = .stream toSend chunks :: appendMsg data rest := by
    rw [hlist]
    exact appendMsg_cons_of_isFile rfl data rest
  split
  · split
    · split
      · exact ⟨⟨toSend, chunks, _, happend, hpos⟩, rfl⟩
      · exact ⟨⟨toSend, chunks, _, happend, hpos⟩, rfl⟩
    · exact ⟨⟨toSend, chunks, _, happend, hpos⟩, rfl⟩
  · exact ⟨⟨toSend, chunks, rest, hlist, hpos⟩, rfl⟩

end Puts

variable {σ : Type*}

/-- The loop thread goes on with `frames`, after `out` has been put behind the output. -/
structure Runs (s : LoopThread σ) (out : Bytes) (frames : List Frame) (s' : LoopThread σ) : Prop where
  puts : Puts s.conn out s'.conn
  thread : s' = { s with conn := s'.conn, stack := frames ++ s.stack }

section SendInLoop

variable {kernel : Kernel} {S : OpenSSL σ} {s s' s'' : LoopThread σ} {out out' : Bytes}
  {frames frames' : List Frame}

theorem Runs.of_puts (h : Puts s.conn out s'.conn) (hthread : s' = { s with conn := s'.conn }) :
    Runs s out [] s' :=
  ⟨h, hthread⟩

theorem Runs.trans (h : Runs s out frames s') (h' : Runs s' out' frames' s'') :
    Runs s (out ++ out') (frames' ++ frames) s'' := by
  refine ⟨h.puts.trans h'.puts, h'.thread.trans ?_⟩
  conv_lhs => rw [h.thread]
  simp only [List.append_assoc]

theorem Runs.push (h : Runs s out [] s') (frames : List Frame) :
    Runs s out frames (push frames s') := by
  refine ⟨h.puts, ?_⟩
  rw [h.thread]
  rfl

theorem runs_queueInList (hplain : s.tlsProvider = none) (h : Open s.conn) (remaining : Bytes) :
    ∃ frames, (frames = [] ∨ frames = [.user]) ∧ Runs s remaining frames (queueInList s remaining) ∧
      KeepsFront s.conn (queueInList s remaining).conn := by
  have hqueued : Runs s remaining [] { s with
      conn := TcpConnectionImpl.queueInList s.conn remaining } :=
    ⟨puts_queueInList h remaining, rfl⟩
  have hfront := keepsFront_queueInList s.conn remaining
  have hnone : s.tlsProvider.isSome = false := by rw [hplain, Option.isSome_none]
  unfold queueInList
  split
  · simp only [hnone, Bool.false_eq_true, if_false]
    split
    · exact ⟨[.user], .inr rfl, hqueued.push _, hfront⟩
    · exact ⟨[], .inl rfl, hqueued, hfront⟩
  · rename_i hskip
    have hnil : remaining = [] := by
      by_contra hne
      exact hskip ⟨List.length_pos_iff.mpr hne, h.connected⟩
    exact ⟨[], .inl rfl, .of_puts (hnil ▸ .refl h) rfl, fun hat => ⟨hat, rfl⟩⟩

theorem writeInLoop_plain (S : OpenSSL σ) (hk : OnlyEAGAIN kernel) (hplain : s.tlsProvider = none)
    (hopen : s.conn.socket.writeClosed = false) (data : Bytes) :
    (∃ n ≤ data.length, ∃ socket bytesSent,
      writeInLoop kernel S s data =
        (.ok n, false, { s with conn := { s.conn with socket, bytesSent } }) ∧
      socket.written = s.conn.socket.written ++ data.take n ∧ socket.writeClosed = false) ∨
    (∃ socket, writeInLoop kernel S s data =
        (.error .EAGAIN, false, { s with conn := { s.conn with socket } }) ∧
      socket.written = s.conn.socket.written ∧ socket.writeClosed = false) := by
  unfold writeInLoop
  rw [hplain]
  rcases writeInLoop_cases hk hopen data with
    ⟨n, hn, socket, bytesSent, hw, hwritten, hstill⟩ | ⟨socket, hw, hwritten, hstill⟩
  · exact .inl ⟨n, hn, socket, bytesSent, by simp only [hw], hwritten, hstill⟩
  · exact .inr ⟨socket, by simp only [hw], hwritten, hstill⟩

theorem runs_sendInLoop (S : OpenSSL σ) (hk : OnlyEAGAIN kernel) (hplain : s.tlsProvider = none)
    (h : Open s.conn) (msg : Bytes) :
    ∃ frames, (frames = [] ∨ frames = [.user]) ∧
      Runs s msg frames (sendInLoop kernel S s msg) ∧
      KeepsFront s.conn (sendInLoop kernel S s msg).conn := by
  unfold sendInLoop
  rw [if_neg (not_not.mpr h.connected)]
  split
  · rename_i hdirect
    have hnone : ∀ c', KeepsFront s.conn c' := by
      rintro c' ⟨toSend, chunks, rest, hlist, -⟩
      simp [hdirect.2] at hlist
    have hbuffer : s.conn.fileBuffer = [] := by
      by_contra hne
      obtain ⟨_, _, _, hlist, -⟩ := h.front hne
      simp [hdirect.2] at hlist
    rcases writeInLoop_plain S hk hplain h.writable msg with
      ⟨n, hn, socket, bytesSent, hw, hwritten, hopen⟩ | ⟨socket, hw, hwritten, hopen⟩
    · let s₁ := { s with conn := { s.conn with socket, bytesSent } }
      have hsent : Runs s (msg.take n) [] s₁ := by
        refine .of_puts ⟨⟨h.connected, hopen, h.front⟩, rfl, rfl, ?_⟩ rfl
        simp [s₁, output, hwritten, hbuffer, hdirect.2]
      have hplain₁ : s₁.tlsProvider = none := hplain
      obtain ⟨frames, hframes, hqueued, -⟩ :=
        runs_queueInList hplain₁ hsent.puts.stays (msg.drop n)
      refine ⟨frames, hframes, ?_, hnone _⟩
      rw [hw]
      simpa using hsent.trans hqueued
    · let s₁ := { s with conn := { s.conn with socket } }
      have hsent : Runs s [] [] s₁ := by
        refine .of_puts ⟨⟨h.connected, hopen, h.front⟩, rfl, rfl, ?_⟩ rfl
        simp [s₁, output, hwritten]
      have hplain₁ : s₁.tlsProvider = none := hplain
      obtain ⟨frames, hframes, hqueued, -⟩ := runs_queueInList hplain₁ hsent.puts.stays msg
      refine ⟨frames, hframes, ?_, hnone _⟩
      rw [hw]
      simpa [sendFailed] using hsent.trans hqueued
  · exact runs_queueInList hplain h msg

end SendInLoop

section Frames

/-- A frame that a call may have put on the stack while a stream callback is running. -/
def nests : Frame → Bool
  | .user | .sendInLoop _ | .unlock | .decrement => true
  | _ => false

/-- `sendInLoop` runs as soon as it is on the stack, and over the stream loop there are calls only.
-/
def mayCover (above below : Frame) : Bool :=
  match below with
  | .sendInLoop _ => false
  | .fetched => nests above
  | _ => true

def ofOutput : Frame → Bool
  | .user | .sendFileInLoop | .fetched | .completed | .checkCloseOnEmpty => true
  | _ => false

/-- Behind `streamCallback_` the chunk is put into an empty buffer. -/
def Fetching (c : Connection) : Prop := c.fileBuffer = [] ∧ AtStream c

structure Pushes (frames : List Frame) (c : Connection) : Prop where
  ofOutput : frames.all ofOutput
  stacked : frames.Pairwise fun above below => mayCover above below
  fetching : .fetched ∈ frames → Fetching c

/-- A frame has run that loses nothing and sends nothing new. -/
def Advances (s s' : LoopThread σ) : Prop :=
  ∃ frames, Runs s [] frames s' ∧ Pushes frames s'.conn

variable {kernel : Kernel} {S : OpenSSL σ} {s s' s'' : LoopThread σ}

theorem Advances.of_puts (h : Puts s.conn [] s'.conn) (hthread : s' = { s with conn := s'.conn }) :
    Advances s s' :=
  ⟨[], .of_puts h hthread, rfl, .nil, nofun⟩

theorem Advances.refl (h : Open s.conn) : Advances s s := .of_puts (.refl h) rfl

theorem Advances.of_runs (h : Runs s [] [] s') (h' : Advances s' s'') : Advances s s'' := by
  obtain ⟨frames, hruns, hpushes⟩ := h'
  refine ⟨frames, ?_, hpushes⟩
  simpa using h.trans hruns

theorem Advances.push (h : Runs s [] [] s') {frames : List Frame} (houtput : frames.all ofOutput)
    (hstacked : frames.Pairwise fun above below => mayCover above below)
    (hfetching : .fetched ∉ frames) : Advances s (push frames s') :=
  ⟨frames, h.push frames, houtput, hstacked, fun hmem => absurd hmem hfetching⟩

theorem advances_enableWriting (h : Open s.conn) : Advances s (enableWriting s) :=
  .of_puts (h.puts_of_same rfl rfl rfl rfl rfl rfl) rfl

theorem advances_fetch (h : Open s.conn) (hbuffer : s.conn.fileBuffer = []) {toSend : Nat}
    {chunks : List Bytes} {rest : List BufferNode}
    (hlist : s.conn.writeBufferList = .stream toSend chunks :: rest) :
    Advances s (fetch toSend s) := by
  unfold fetch
  split
  · exact advances_enableWriting h
  · rename_i hpos
    refine ⟨[.user, .fetched], (Runs.of_puts (.refl h) rfl).push _, rfl, ?_, fun _ => ?_⟩
    · exact List.pairwise_pair.mpr rfl
    · exact ⟨hbuffer, toSend, chunks, rest, hlist, hpos⟩

theorem advances_writeFileBuffer (S : OpenSSL σ) (hk : OnlyEAGAIN kernel)
    (hplain : s.tlsProvider = none) (h : Open s.conn) {toSend : Nat} {chunks : List Bytes}
    {rest : List BufferNode} (hlist : s.conn.writeBufferList = .stream toSend chunks :: rest)
    (hpos : toSend ≠ 0) : Advances s (writeFileBuffer kernel S toSend s) := by
  have hat : AtStream s.conn := ⟨toSend, chunks, rest, hlist, hpos⟩
  unfold writeFileBuffer
  rcases writeInLoop_plain S hk hplain h.writable s.conn.fileBuffer with
    ⟨n, hn, socket, bytesSent, hw, hwritten, hopen⟩ | ⟨socket, hw, hwritten, hopen⟩
  · rw [hw]
    simp only
    split
    · let s₁ := { s with conn := { s.conn with
        socket, bytesSent, fileBuffer := s.conn.fileBuffer.drop n } }
      have hsent : Runs s [] [] s₁ := by
        refine .of_puts ⟨⟨h.connected, hopen, fun _ => hat⟩, rfl, rfl, ?_⟩ rfl
        simp only [s₁, output, hwritten, List.append_nil, List.append_assoc]
        rw [← List.append_assoc (s.conn.fileBuffer.take n), List.take_append_drop]
      exact .of_runs hsent (advances_enableWriting hsent.puts.stays)
    · rename_i hall
      let s₁ := { s with conn := { s.conn with socket, bytesSent, fileBuffer := [] } }
      have hsent : Runs s [] [] s₁ := by
        refine .of_puts ⟨⟨h.connected, hopen, fun _ => hat⟩, rfl, rfl, ?_⟩ rfl
        simp only [s₁, output, hwritten, List.append_nil, List.append_assoc, List.nil_append]
        rw [List.take_of_length_le (Nat.le_of_not_lt hall)]
      have hlist₁ : s₁.conn.writeBufferList = .stream toSend chunks :: rest := hlist
      exact .of_runs hsent (advances_fetch hsent.puts.stays rfl hlist₁)
  · rw [hw]
    let s₁ := { s with conn := { s.conn with socket } }
    have hsent : Runs s [] [] s₁ := by
      refine .of_puts ⟨⟨h.connected, hopen, h.front⟩, rfl, rfl, ?_⟩ rfl
      simp [s₁, output, hwritten]
    exact .of_runs hsent (advances_enableWriting hsent.puts.stays)

theorem advances_fetched (S : OpenSSL σ) (hk : OnlyEAGAIN kernel) (hplain : s.tlsProvider = none)
    (h : Open s.conn) (hfetching : Fetching s.conn) : Advances s (fetched kernel S s) := by
  obtain ⟨hbuffer, toSend, chunks, rest, hlist, hpos⟩ := hfetching
  have hended : ∀ chunks', nodePending (.stream toSend chunks) = [] →
      Advances s (enableWriting { s with
        conn.writeBufferList := .stream 0 chunks' :: rest }) := by
    intro chunks' hend
    let s₁ := { s with conn.writeBufferList := .stream 0 chunks' :: rest }
    have hset : Runs s [] [] s₁ := by
      refine .of_puts ⟨⟨h.connected, h.writable, fun hne => absurd hbuffer hne⟩, rfl, rfl, ?_⟩ rfl
      simp only [s₁, output, hlist, List.map_cons, List.flatten_cons, hend]
      simp [nodePending]
    exact .of_runs hset (advances_enableWriting hset.puts.stays)
  unfold fetched
  rw [hlist]
  rcases chunks with _ | ⟨chunk, chunks⟩
  · exact hended [] (by simp [nodePending, streamContent])
  · simp only
    split
    · rename_i hchunk
      exact hended chunks (by simp [nodePending, streamContent, hchunk])
    · rename_i hchunk
      let s₁ := { s with
        conn.fileBuffer := chunk
        conn.writeBufferList := .stream toSend chunks :: rest }
      have hset : Runs s [] [] s₁ := by
        refine .of_puts ⟨⟨h.connected, h.writable, fun _ => ⟨toSend, chunks, rest, rfl, hpos⟩⟩, rfl,
          rfl, ?_⟩ rfl
        simp only [s₁, output, hlist, hbuffer, List.map_cons, List.flatten_cons, nodePending,
          if_neg hpos, streamContent_cons hchunk, List.append_assoc, List.nil_append,
          List.append_nil]
      have hplain₁ : s₁.tlsProvider = none := hplain
      exact .of_runs hset (advances_writeFileBuffer S hk hplain₁ hset.puts.stays rfl hpos)

theorem Open.fileBuffer_eq_nil {c : Connection} (h : Open c) (hat : ¬AtStream c) :
    c.fileBuffer = [] := by
  by_contra hne
  exact hat (h.front hne)

theorem advances_sendFileInLoop (hk : OnlyEAGAIN kernel) (hplain : s.tlsProvider = none)
    (h : Open s.conn) (hsend : sendFileInLoop kernel S s = some s') : Advances s s' := by
  unfold sendFileInLoop at hsend
  have hnone : s.tlsProvider.isSome = false := by rw [hplain, Option.isSome_none]
  split at hsend
  · rename_i content offset toSend rest hlist
    obtain ⟨socket, writing, offset', toSend', hsent, hopen, hout⟩ :=
      sendfileInLoop_sent s.conn hk h.writable content offset toSend
    rw [hnone, if_neg Bool.false_ne_true, hsent] at hsend
    obtain rfl := Option.some.inj hsend
    have hbuffer : s.conn.fileBuffer = [] := by
      apply h.fileBuffer_eq_nil
      rintro ⟨_, _, _, hstream, -⟩
      simp [hlist] at hstream
    refine .of_puts ?_ rfl
    refine ⟨⟨h.connected, hopen, fun hne => absurd hbuffer hne⟩, rfl, rfl, ?_⟩
    simp only [output, hlist, hbuffer, List.map_cons, List.flatten_cons, List.nil_append,
      List.append_nil, ← List.append_assoc, hout]
  · rename_i toSend chunks rest hlist
    split at hsend
    · rename_i hbuffer
      obtain rfl := Option.some.inj hsend
      exact advances_fetch h hbuffer hlist
    · rename_i hbuffer
      obtain rfl := Option.some.inj hsend
      obtain ⟨_, _, _, hlist', hpos⟩ := h.front hbuffer
      rw [hlist] at hlist'
      simp only [List.cons.injEq, BufferNode.stream.injEq] at hlist'
      rw [← hlist'.1.1] at hpos
      exact advances_writeFileBuffer S hk hplain h hlist hpos
  · simp at hsend

theorem advances_writeMsg (S : OpenSSL σ) (hk : OnlyEAGAIN kernel) (hplain : s.tlsProvider = none)
    (h : Open s.conn) {msgBuffer : Bytes} {rest : List BufferNode}
    (hlist : s.conn.writeBufferList = .msg msgBuffer :: rest) :
    Advances s (writeMsg kernel S s msgBuffer rest) := by
  have hbuffer : s.conn.fileBuffer = [] := by
    apply h.fileBuffer_eq_nil
    rintro ⟨_, _, _, hstream, -⟩
    simp [hlist] at hstream
  unfold writeMsg
  rcases writeInLoop_plain S hk hplain h.writable msgBuffer with
    ⟨n, hn, socket, bytesSent, hw, hwritten, hopen⟩ | ⟨socket, hw, hwritten, hopen⟩
  · rw [hw]
    refine .push (.of_puts ?_ rfl) rfl (List.pairwise_singleton _ _) (by simp)
    refine ⟨⟨h.connected, hopen, fun hne => absurd hbuffer hne⟩, rfl, rfl, ?_⟩
    simp only [output, hlist, hbuffer, hwritten, List.map_cons, List.flatten_cons, nodePending,
      retrieve_eq, List.nil_append, List.append_nil, List.append_assoc]
    rw [← List.append_assoc (List.take n msgBuffer), List.take_append_drop]
  · rw [hw]
    refine .push (.of_puts ?_ rfl) rfl (List.pairwise_singleton _ _) (by simp)
    refine ⟨⟨h.connected, hopen, h.front⟩, rfl, rfl, ?_⟩
    simp [output, hwritten]

theorem runs_pop (h : Open s.conn) {node : BufferNode} {rest : List BufferNode}
    (hlist : s.conn.writeBufferList = node :: rest) (hdone : nodePending node = [])
    (hbuffer : s.conn.fileBuffer = []) :
    Runs s [] [] { s with conn.writeBufferList := rest } := by
  refine .of_puts ⟨⟨h.connected, h.writable, fun hne => absurd hbuffer hne⟩, rfl, rfl, ?_⟩ rfl
  simp [output, hlist, hdone]

theorem advances_writeNext (hk : OnlyEAGAIN kernel) (hplain : s.tlsProvider = none)
    (h : Open s.conn) {afterFile : Bool} {rest : List BufferNode} {node : BufferNode}
    (hlist : s.conn.writeBufferList = node :: rest) (hdone : nodePending node = [])
    (hbuffer : s.conn.fileBuffer = [])
    (hnext : writeNext kernel S afterFile s rest = some s') : Advances s s' := by
  have hpop := runs_pop h hlist hdone hbuffer
  have hplain₁ : { s with conn.writeBufferList := rest }.tlsProvider = none := hplain
  unfold writeNext at hnext
  simp only at hnext
  split at hnext
  · obtain rfl := Option.some.inj hnext
    let s₁ := { s with
      conn := TcpConnectionImpl.log
        (TcpConnectionImpl.disableWriting { s.conn with writeBufferList := [] })
        .writeCompleteCallback }
    have hlog : Runs s [] [] s₁ := by
      refine .of_puts ⟨⟨h.connected, h.writable, hpop.puts.stays.front⟩, rfl, ?_, ?_⟩ rfl
      · simp only [s₁, accepted_log, eventPayload, List.append_nil]
        rfl
      · exact hpop.puts.output_eq
    refine .push hlog rfl ?_ (by simp)
    simp [mayCover]
  · split at hnext
    · obtain rfl := Option.some.inj hnext
      exact .of_runs hpop (advances_writeMsg S hk hplain₁ hpop.puts.stays rfl)
    · simp at hnext
  · obtain rfl := Option.some.inj hnext
    exact .push hpop rfl (List.pairwise_pair.mpr rfl) (by simp)

theorem advances_writeList (hk : OnlyEAGAIN kernel) (hplain : s.tlsProvider = none)
    (h : Open s.conn) (hwrite : writeList kernel S s = some s') : Advances s s' := by
  have hcheck : ∀ {frames}, frames = [.sendFileInLoop, .checkCloseOnEmpty] →
      Advances s (push frames s) := by
    rintro _ rfl
    exact .push (.of_puts (.refl h) rfl) rfl (List.pairwise_pair.mpr rfl) (by simp)
  have hbuffer : (∀ toSend chunks rest, s.conn.writeBufferList = .stream toSend chunks :: rest →
      toSend = 0) → s.conn.fileBuffer = [] := by
    intro hended
    apply h.fileBuffer_eq_nil
    rintro ⟨toSend, chunks, rest, hlist, hpos⟩
    exact hpos (hended toSend chunks rest hlist)
  unfold writeList at hwrite
  split at hwrite
  · simp at hwrite
  · rename_i hlist
    split at hwrite
    · rename_i hempty
      refine advances_writeNext hk hplain h hlist ?_ (hbuffer ?_) hwrite
      · simpa [nodePending] using hempty
      · simp [hlist]
    · obtain rfl := Option.some.inj hwrite
      exact advances_writeMsg S hk hplain h hlist
  · rename_i hlist
    split at hwrite
    · rename_i hzero
      refine advances_writeNext hk hplain h hlist ?_ (hbuffer ?_) hwrite
      · simp [nodePending, hzero]
      · simp [hlist]
    · obtain rfl := Option.some.inj hwrite
      exact hcheck rfl
  · rename_i hlist
    split at hwrite
    · rename_i hzero
      refine advances_writeNext hk hplain h hlist ?_ (hbuffer ?_) hwrite
      · simp [nodePending, hzero]
      · simp [hlist, hzero]
    · obtain rfl := Option.some.inj hwrite
      exact hcheck rfl

end Frames

section Sends

/-- A frame of an open connection without a provider. -/
def inOpen : Frame → Bool
  | .user | .writeCallback | .sendInLoop _ | .unlock | .decrement | .startFile | .sendFileInLoop
  | .fetched | .completed | .checkCloseOnEmpty => true
  | .readCallback result => !closes (.readCallback result)
  | _ => false

/-- A call or a `shutdown()` of another thread, or a call that has been made behind one. -/
def ofUser : Functor → Bool
  | .request (.call _) | .request .shutdown => true
  | _ => false

/-- The loop thread on an open connection that nobody closes by force. -/
structure Sends (s : LoopThread σ) : Prop where
  plain : s.tlsProvider = none
  conn : Open s.conn
  counted : s.funcs.countP isCall + s.stack.count .decrement ≤ s.conn.sendNum
  stacked : s.stack.Pairwise fun above below => mayCover above below
  frames : s.stack.all inOpen
  functors : s.funcs.all ofUser
  fetching : .fetched ∈ s.stack → Fetching s.conn
  closing : s.closing = 0

def flight : List Frame → Bytes
  | frame :: _ => framePayload frame
  | [] => []

/-- What has been written, what is buffered and what is about to be sent. -/
def handed (s : LoopThread σ) : Bytes := output s.conn ++ flight s.stack

def waiting (funcs : List Functor) : Bytes := (funcs.map functorPayload).flatten

/-- What a step does to the calls: nothing, or the first functor is begun, or a call is made, or
another thread calls `shutdown()`. -/
inductive Moved (s : LoopThread σ) : Event → LoopThread σ → Prop
  | keeps {event s'} (handed_eq : handed s' = handed s) (funcs_eq : s'.funcs = s.funcs)
      (accepted_eq : accepted s'.conn = accepted s.conn) : Moved s event s'
  | enters {s'} (functor : Functor) (funcs_eq : s.funcs = functor :: s'.funcs)
      (handed_eq : handed s' = handed s ++ functorPayload functor)
      (accepted_eq : accepted s'.conn = accepted s.conn) : Moved s .functor s'
  | direct {s'} (call : SendCall) (hnone : s.funcs.countP isCall = 0)
      (handed_eq : handed s' = handed s ++ payload call) (funcs_eq : s'.funcs = s.funcs)
      (accepted_eq : accepted s'.conn = accepted s.conn ++ payload call) :
      Moved s (.inLoop (.call call)) s'
  | queued {event s'} (call : SendCall) (handed_eq : handed s' = handed s)
      (funcs_eq : s'.funcs = s.funcs ++ [.request (.call call)])
      (accepted_eq : accepted s'.conn = accepted s.conn ++ payload call) : Moved s event s'
  | asked {s'} (handed_eq : handed s' = handed s)
      (funcs_eq : s'.funcs = s.funcs ++ [.request .shutdown])
      (accepted_eq : accepted s'.conn = accepted s.conn) : Moved s (.elsewhere .shutdown) s'

variable {kernel : Kernel} {S : OpenSSL σ} {s s' : LoopThread σ}

theorem flight_append {frames rest : List Frame} (hframes : frames.all ofOutput)
    (hrest : ∀ msg, .sendInLoop msg ∉ rest) : flight (frames ++ rest) = [] := by
  rcases frames with _ | ⟨frame, frames⟩
  · rcases rest with _ | ⟨frame, rest⟩
    · rfl
    · cases frame with
      | sendInLoop msg => exact absurd List.mem_cons_self (hrest msg)
      | _ => rfl
  · rw [List.all_cons, Bool.and_eq_true] at hframes
    cases frame with
    | sendInLoop => simp [ofOutput] at hframes
    | _ => rfl

theorem inOpen_of_ofOutput {frame : Frame} (hframe : ofOutput frame) : inOpen frame := by
  cases frame with
  | user | sendFileInLoop | fetched | completed | checkCloseOnEmpty => rfl
  | _ => simp [ofOutput] at hframe

theorem Sends.pop (h : Sends s) {frame : Frame} {stack : List Frame}
    (hstack : s.stack = frame :: stack) : Sends { s with stack } := by
  have hstacked := h.stacked
  have hframes := h.frames
  have hcounted := h.counted
  rw [hstack] at hstacked hframes hcounted
  rw [List.all_cons, Bool.and_eq_true] at hframes
  refine ⟨h.plain, h.conn, ?_, hstacked.of_cons, hframes.2, h.functors, fun hmem => ?_, h.closing⟩
  · refine le_trans (Nat.add_le_add_left ?_ _) hcounted
    exact List.count_le_count_cons
  · exact h.fetching (hstack ▸ List.mem_cons_of_mem _ hmem)

theorem Sends.not_flight (h : Sends s) {frame : Frame} {stack : List Frame}
    (hstack : s.stack = frame :: stack) (msg : Bytes) : .sendInLoop msg ∉ stack := by
  have hstacked := h.stacked
  rw [hstack] at hstacked
  intro hmem
  have := (List.pairwise_cons.mp hstacked).1 _ hmem
  simp [mayCover] at this

theorem Sends.nests_of_fetched (h : Sends s) {frame : Frame} {stack : List Frame}
    (hstack : s.stack = frame :: stack) (hfetched : .fetched ∈ stack) : nests frame := by
  have hstacked := h.stacked
  rw [hstack] at hstacked
  exact (List.pairwise_cons.mp hstacked).1 _ hfetched

theorem Sends.runs (h : Sends s) {out : Bytes} {frames : List Frame} (hruns : Runs s out frames s')
    (hframes : frames.all ofOutput) (hstacked : frames.Pairwise fun above below => mayCover above below)
    (hflight : ∀ msg, .sendInLoop msg ∉ s.stack)
    (hnests : .fetched ∈ s.stack → frames.all nests)
    (hfetching : .fetched ∈ frames ++ s.stack → Fetching s'.conn) :
    Sends s' ∧ handed s' = output s.conn ++ out ∧ s'.funcs = s.funcs ∧
      accepted s'.conn = accepted s.conn := by
  obtain ⟨hputs, hthread⟩ := hruns
  have hstack : s'.stack = frames ++ s.stack := by rw [hthread]
  have hfuncs : s'.funcs = s.funcs := by rw [hthread]
  have hclosing : s'.closing = s.closing := by rw [hthread]
  have hplain : s'.tlsProvider = s.tlsProvider := by rw [hthread]
  refine ⟨⟨hplain.trans h.plain, hputs.stays, ?_, ?_, ?_, ?_, ?_, hclosing.trans h.closing⟩, ?_,
    hfuncs, hputs.accepted_eq⟩
  · have hnone : frames.count .decrement = 0 := by
      rw [List.count_eq_zero]
      intro hmem
      exact absurd (List.all_eq_true.mp hframes _ hmem) (by simp [ofOutput])
    rw [hfuncs, hstack, hputs.sendNum, List.count_append, hnone, Nat.zero_add]
    exact h.counted
  · rw [hstack, List.pairwise_append]
    refine ⟨hstacked, h.stacked, fun above habove below hbelow => ?_⟩
    cases below with
    | sendInLoop msg => exact absurd hbelow (hflight msg)
    | fetched => exact List.all_eq_true.mp (hnests hbelow) above habove
    | _ => rfl
  · rw [hstack, List.all_append, h.frames, Bool.and_true]
    exact List.all_eq_true.mpr fun frame hmem =>
      inOpen_of_ofOutput (List.all_eq_true.mp hframes frame hmem)
  · rw [hfuncs]
    exact h.functors
  · rw [hstack]
    exact hfetching
  · rw [handed, hstack, flight_append hframes hflight, hputs.output_eq, List.append_nil]

theorem shutdown_of_pending (hconnected : s.conn.status = .Connected)
    (hpending : s.conn.writeBufferList ≠ []) :
    shutdown kernel S s = { s with conn.closeOnEmpty := true } := by
  unfold shutdown
  rw [if_pos hconnected, if_pos (.inr (by simpa using hpending))]

theorem advances_readCallback (hplain : s.tlsProvider = none) (h : Open s.conn) {result : ReadResult}
    (hcloses : closes (.readCallback result) = false) : Advances s (readCallback s result) := by
  rcases result with e | _ | ⟨byte, chunk⟩
  · simp only [closes, List.mem_cons, List.not_mem_nil, or_false, decide_not, Bool.not_eq_false',
      decide_eq_true_eq] at hcloses
    rw [readCallback, if_pos hcloses]
    exact .refl h
  · simp [closes] at hcloses
  · have hnone : s.tlsProvider.isSome = false := by rw [hplain, Option.isSome_none]
    simp only [readCallback, hnone, Bool.false_eq_true, if_false]
    refine .push (.of_puts ?_ rfl) rfl (List.pairwise_singleton _ _) (by simp)
    exact h.puts_of_same rfl rfl rfl rfl rfl rfl

theorem advances_exec (hk : OnlyEAGAIN kernel) (h : Sends s) {frame : Frame} (hopen : inOpen frame)
    (hnests : nests frame = false) (hfetched : frame = .fetched → Fetching s.conn)
    (hpending : frame = .checkCloseOnEmpty → s.conn.closeOnEmpty → s.conn.writeBufferList ≠ [])
    (hexec : exec kernel S s frame = some s') : Advances s s' := by
  cases frame with
  | user | sendInLoop | unlock | decrement => simp [nests] at hnests
  | readCallback result =>
      obtain rfl := Option.some.inj hexec
      exact advances_readCallback h.plain h.conn (by simpa [inOpen] using hopen)
  | writeCallback =>
      simp only [exec, writeCallback, h.plain] at hexec
      split at hexec
      · exact advances_writeList hk h.plain h.conn hexec
      · obtain rfl := Option.some.inj hexec
        exact .refl h.conn
  | startFile =>
      simp only [exec] at hexec
      split at hexec
      · obtain rfl := Option.some.inj hexec
        exact .push (.of_puts (.refl h.conn) rfl) rfl (List.pairwise_singleton _ _) (by simp)
      · obtain rfl := Option.some.inj hexec
        exact .refl h.conn
  | sendFileInLoop => exact advances_sendFileInLoop hk h.plain h.conn hexec
  | fetched =>
      obtain rfl := Option.some.inj hexec
      exact advances_fetched S hk h.plain h.conn (hfetched rfl)
  | completed =>
      obtain rfl := Option.some.inj hexec
      rw [completed, if_neg (by simp [h.conn.connected])]
      exact .refl h.conn
  | checkCloseOnEmpty =>
      obtain rfl := Option.some.inj hexec
      unfold checkCloseOnEmpty
      split
      · rename_i hclose
        rw [shutdown_of_pending h.conn.connected (hpending rfl hclose.1)]
        exact .of_puts (h.conn.puts_of_same rfl rfl rfl rfl rfl rfl) rfl
      · exact .refl h.conn
  | _ => simp [inOpen] at hopen

theorem Sends.lock (h : Sends s) (locked : Bool) : Sends { s with locked } :=
  ⟨h.plain, h.conn, h.counted, h.stacked, h.frames, h.functors, h.fetching, h.closing⟩

theorem Sends.closeOnEmpty (h : Sends s) : Sends { s with conn.closeOnEmpty := true } :=
  ⟨h.plain, ⟨h.conn.connected, h.conn.writable, h.conn.front⟩, h.counted, h.stacked, h.frames,
    h.functors, h.fetching, h.closing⟩

theorem handed_of_flight (hflight : flight s.stack = []) : handed s = output s.conn := by
  rw [handed, hflight, List.append_nil]

theorem handed_cons {frame : Frame} {stack : List Frame} (hstack : s.stack = frame :: stack) :
    handed s = output s.conn ++ framePayload frame := by
  rw [handed, hstack]
  rfl

theorem Sends.handed_pop (h : Sends s) {frame : Frame} {stack : List Frame}
    (hstack : s.stack = frame :: stack) (hpayload : framePayload frame = []) :
    handed { s with stack } = handed s := by
  have hrest : flight stack = [] := @flight_append [] stack rfl (h.not_flight hstack)
  rw [handed_cons hstack, hpayload, List.append_nil]
  exact handed_of_flight hrest

theorem Sends.advances (h : Sends s) {frame : Frame} {stack : List Frame}
    (hstack : s.stack = frame :: stack) (hnest : nests frame = false)
    (hadvances : Advances { s with stack } s') : Sends s' ∧ Moved s .resume s' := by
  obtain ⟨frames, hruns, hpushes⟩ := hadvances
  have hnone : Frame.fetched ∉ stack := by
    intro hmem
    rw [h.nests_of_fetched hstack hmem] at hnest
    exact Bool.noConfusion hnest
  have hpayload : framePayload frame = [] := by
    cases frame with
    | sendInLoop => simp [nests] at hnest
    | _ => rfl
  have hflight := h.not_flight hstack
  obtain ⟨hsends, hhanded, hfuncs, haccepted⟩ := (h.pop hstack).runs hruns hpushes.ofOutput
    hpushes.stacked hflight (fun hmem => absurd hmem hnone)
    (fun hmem => hpushes.fetching ((List.mem_append.mp hmem).resolve_right hnone))
  refine ⟨hsends, .keeps ?_ hfuncs haccepted⟩
  rw [hhanded, handed_cons hstack, hpayload]

theorem Sends.sendInLoop (hk : OnlyEAGAIN kernel) (h : Sends s) {msg : Bytes} {stack : List Frame}
    (hstack : s.stack = .sendInLoop msg :: stack) :
    Sends (sendInLoop kernel S { s with stack } msg) ∧
      Moved s .resume (ConnectionThread.sendInLoop kernel S { s with stack } msg) := by
  have htail := h.pop hstack
  have hflight := h.not_flight hstack
  obtain ⟨frames, hframes, hruns, hfront⟩ := runs_sendInLoop S hk htail.plain htail.conn msg
  have hall : frames.all ofOutput ∧ frames.all nests ∧ Frame.fetched ∉ frames ∧
      frames.Pairwise fun above below => mayCover above below := by
    rcases hframes with rfl | rfl <;> simp [ofOutput, nests]
  obtain ⟨houtput, hnests, hfetched, hstacked⟩ := hall
  have hfetching : .fetched ∈ frames ++ stack →
      Fetching (ConnectionThread.sendInLoop kernel S { s with stack } msg).conn := by
    intro hmem
    obtain ⟨hbuffer, hat⟩ := htail.fetching ((List.mem_append.mp hmem).resolve_left hfetched)
    exact ⟨(hfront hat).2.trans hbuffer, (hfront hat).1⟩
  obtain ⟨hsends, hhanded, hfuncs, haccepted⟩ :=
    htail.runs hruns houtput hstacked hflight (fun _ => hnests) hfetching
  exact ⟨hsends, .keeps (hhanded.trans (handed_cons hstack).symm) hfuncs haccepted⟩

theorem Sends.decrement (h : Sends s) {stack : List Frame} (hstack : s.stack = .decrement :: stack) :
    Sends { s with stack, conn.sendNum := s.conn.sendNum - 1 } := by
  have htail := h.pop hstack
  have hcounted := h.counted
  rw [hstack, List.count_cons_self] at hcounted
  exact ⟨htail.plain, ⟨h.conn.connected, h.conn.writable, h.conn.front⟩,
    Nat.le_sub_of_add_le hcounted, htail.stacked, htail.frames, htail.functors, htail.fetching,
    htail.closing⟩

theorem Sends.exec (hk : OnlyEAGAIN kernel) (h : Sends s) {frame : Frame} {stack : List Frame}
    (hstack : s.stack = frame :: stack)
    (hpending : frame = .checkCloseOnEmpty → s.conn.closeOnEmpty → s.conn.writeBufferList ≠ [])
    (hexec : exec kernel S { s with stack } frame = some s') :
    Sends s' ∧ Moved s .resume s' := by
  have htail := h.pop hstack
  cases hnest : nests frame with
  | false =>
      have hopen : inOpen frame := by
        have hframes := h.frames
        rw [hstack, List.all_cons, Bool.and_eq_true] at hframes
        exact hframes.1
      apply h.advances hstack hnest
      refine advances_exec hk htail hopen hnest ?_ hpending hexec
      rintro rfl
      exact h.fetching (hstack ▸ List.mem_cons_self)
  | true =>
      cases frame with
      | user =>
          obtain rfl := Option.some.inj hexec
          exact ⟨htail, .keeps (h.handed_pop hstack rfl) rfl rfl⟩
      | sendInLoop msg =>
          obtain rfl := Option.some.inj hexec
          exact h.sendInLoop hk hstack
      | unlock =>
          obtain rfl := Option.some.inj hexec
          exact ⟨htail.lock false, .keeps (h.handed_pop hstack rfl) rfl rfl⟩
      | decrement =>
          obtain rfl := Option.some.inj hexec
          exact ⟨h.decrement hstack, .keeps (h.handed_pop hstack rfl) rfl rfl⟩
      | _ => simp [nests] at hnest

theorem inUser_stack (huser : inUser s) : s.stack = [] ∨ ∃ stack, s.stack = .user :: stack := by
  unfold inUser at huser
  rcases hstack : s.stack with _ | ⟨frame, stack⟩
  · exact .inl rfl
  · simp only [hstack, List.head?_cons, Option.all_some, decide_eq_true_eq] at huser
    exact .inr ⟨stack, by rw [huser]⟩

theorem Sends.inUser_flight (h : Sends s) (huser : inUser s) :
    flight s.stack = [] ∧ ∀ msg, .sendInLoop msg ∉ s.stack := by
  rcases inUser_stack huser with hstack | ⟨stack, hstack⟩
  · rw [hstack]
    exact ⟨rfl, fun _ => List.not_mem_nil⟩
  · have hflight := h.not_flight hstack
    rw [hstack]
    refine ⟨rfl, fun msg hmem => ?_⟩
    rcases List.mem_cons.mp hmem with heq | hmem
    · exact Frame.noConfusion heq
    · exact hflight msg hmem

theorem Sends.log (h : Sends s) (call : SendCall) :
    Sends { s with conn := TcpConnectionImpl.log s.conn (.call call) } :=
  ⟨h.plain, ⟨h.conn.connected, h.conn.writable, h.conn.front⟩, h.counted, h.stacked, h.frames,
    h.functors, h.fetching, h.closing⟩

theorem Sends.queueCall (h : Sends s) (call : SendCall) : Sends (queueCall s call) := by
  refine ⟨h.plain, ⟨h.conn.connected, h.conn.writable, h.conn.front⟩, ?_, h.stacked, h.frames, ?_,
    h.fetching, h.closing⟩
  · have hcounted := h.counted
    simp only [ConnectionThread.queueCall, List.countP_append, List.countP_singleton, isCall, if_true]
    omega
  · simp only [ConnectionThread.queueCall, List.all_append, h.functors, Bool.true_and]
    rfl

theorem moved_queueCall (s : LoopThread σ) (call : SendCall) (event : Event) :
    Moved s event (queueCall { s with conn := TcpConnectionImpl.log s.conn (.call call) } call) :=
  .queued call rfl rfl (accepted_log s.conn (.call call))

theorem Sends.push (h : Sends s) {frames : List Frame} (hframes : frames.all inOpen)
    (hstacked : frames.Pairwise fun above below => mayCover above below)
    (hcover : ∀ above ∈ frames, ∀ below ∈ s.stack, mayCover above below)
    (hcounted : s.funcs.countP isCall + (frames ++ s.stack).count .decrement ≤ s.conn.sendNum)
    (hfetched : .fetched ∉ frames) : Sends (push frames s) := by
  refine ⟨h.plain, h.conn, hcounted, ?_, ?_, h.functors, fun hmem => ?_, h.closing⟩
  · exact List.pairwise_append.mpr ⟨hstacked, h.stacked, hcover⟩
  · simp only [ConnectionThread.push, List.all_append, hframes, h.frames, Bool.and_true]
  · exact h.fetching ((List.mem_append.mp hmem).resolve_left hfetched)

theorem nodePending_fileNode {call : SendCall} {node : BufferNode} (hnode : fileNode call = some node) :
    nodePending node = payload call := by
  cases call with
  | send => simp [fileNode] at hnode
  | sendFile | sendStream =>
      obtain rfl := Option.some.inj hnode
      simp [nodePending, payload]

theorem Sends.pushNode (h : Sends s) (node : BufferNode) : Sends (pushNode node s) ∧
    output (pushNode node s).conn = output s.conn ++ nodePending node := by
  have hat : AtStream s.conn → AtStream (ConnectionThread.pushNode node s).conn := by
    rintro ⟨toSend, chunks, rest, hlist, hpos⟩
    exact ⟨toSend, chunks, rest ++ [node], by simp [ConnectionThread.pushNode, hlist], hpos⟩
  refine ⟨⟨h.plain, ⟨h.conn.connected, h.conn.writable, fun hne => hat (h.conn.front hne)⟩,
    h.counted, h.stacked, h.frames, h.functors, fun hmem => ?_, h.closing⟩, ?_⟩
  · obtain ⟨hbuffer, hstream⟩ := h.fetching hmem
    exact ⟨hbuffer, hat hstream⟩
  · simp [output, ConnectionThread.pushNode]

theorem Sends.callFile (h : Sends s) (huser : inUser s) (node : BufferNode) :
    let s₁ := ConnectionThread.pushNode node s
    let s₂ := if s₁.conn.writeBufferList.length = 1 then
      ConnectionThread.push [.sendFileInLoop, .unlock] { s₁ with locked := true } else s₁
    Sends s₂ ∧ handed s₂ = handed s ++ nodePending node ∧ s₂.funcs = s.funcs ∧
      accepted s₂.conn = accepted s.conn := by
  obtain ⟨hnode, hout⟩ := h.pushNode node
  obtain ⟨hflight, hnone⟩ := h.inUser_flight huser
  simp only
  rw [handed_of_flight hflight, ← hout]
  split
  · rename_i hone
    refine ⟨(hnode.lock true).push rfl (List.pairwise_pair.mpr rfl) ?_ ?_ (by simp), ?_, rfl, rfl⟩
    · intro above habove below hbelow
      cases below with
      | sendInLoop msg => exact absurd hbelow (hnone msg)
      | fetched =>
          -- the list has held the stream already
          obtain ⟨-, toSend, chunks, rest, hlist, -⟩ := h.fetching hbelow
          simp [ConnectionThread.pushNode, hlist] at hone
      | _ => rfl
    · rw [List.count_append]
      simpa using hnode.counted
    · simp [handed, ConnectionThread.push, flight, framePayload]
  · exact ⟨hnode, handed_of_flight hflight, rfl, rfl⟩

theorem Sends.callInLoop (h : Sends s) (huser : inUser s) (call : SendCall) :
    Sends (callInLoop s call) ∧ handed (callInLoop s call) = handed s ++ payload call ∧
      (callInLoop s call).funcs = s.funcs ∧
      accepted (callInLoop s call).conn = accepted s.conn := by
  obtain ⟨hflight, hnone⟩ := h.inUser_flight huser
  cases call with
  | send msg =>
      refine ⟨(h.lock true).push rfl (List.pairwise_pair.mpr rfl) ?_ ?_ (by simp), ?_, rfl, rfl⟩
      · intro above habove below hbelow
        cases below with
        | sendInLoop msg => exact absurd hbelow (hnone msg)
        | fetched =>
            simp only [List.mem_cons, List.not_mem_nil, or_false] at habove
            rcases habove with rfl | rfl
            · rfl
            · rfl
        | _ => rfl
      · rw [List.count_append]
        simpa using h.counted
      · rw [handed_of_flight hflight]
        rfl
  | sendFile content offset length => exact h.callFile huser (.file content offset length)
  | sendStream chunks =>
      have hpayload : nodePending (.stream 1 chunks) = payload (.sendStream chunks) :=
        nodePending_fileNode rfl
      rw [← hpayload]
      exact h.callFile huser (.stream 1 chunks)

theorem Sends.requestInLoop (h : Sends s) (huser : inUser s) {request : Request}
    (hgraceful : request ≠ .forceClose)
    (hpending : request = .shutdown → s.conn.writeBufferList ≠ [])
    (hrequest : requestInLoop kernel S s request = some s') :
    Sends s' ∧ Moved s (.inLoop request) s' := by
  cases requestInLoop_cases hrequest with
  | @direct call _ hfree =>
      obtain ⟨hsends, hhanded, hfuncs, haccepted⟩ := (h.log call).callInLoop huser call
      refine ⟨hsends, .direct call ?_ hhanded hfuncs ?_⟩
      · have hcounted := h.counted
        rw [hfree] at hcounted
        exact Nat.eq_zero_of_add_eq_zero_right (Nat.le_zero.mp hcounted)
      · rw [haccepted]
        exact accepted_log s.conn (.call call)
  | @queued call => exact ⟨(h.log call).queueCall call, moved_queueCall s call _⟩
  | shutdown =>
      rw [shutdown_of_pending h.conn.connected (hpending rfl)]
      exact ⟨h.closeOnEmpty, .keeps rfl rfl rfl⟩
  | forceClose => exact absurd rfl hgraceful

theorem Sends.requestElsewhere (h : Sends s) {request : Request}
    (hgraceful : request ≠ .forceClose) :
    Sends (requestElsewhere s request) ∧
      Moved s (.elsewhere request) (requestElsewhere s request) := by
  cases request with
  | call call =>
      simp only [ConnectionThread.requestElsewhere]
      split
      · exact ⟨h, .keeps rfl rfl rfl⟩
      · exact ⟨(h.log call).queueCall call, moved_queueCall s call _⟩
  | shutdown =>
      refine ⟨⟨h.plain, h.conn, ?_, h.stacked, h.frames, ?_, h.fetching, h.closing⟩,
        .asked rfl rfl rfl⟩
      · simpa [ConnectionThread.requestElsewhere, List.countP_append, isCall] using h.counted
      · simp only [ConnectionThread.requestElsewhere, List.all_append, h.functors, Bool.true_and]
        rfl
  | forceClose => exact absurd rfl hgraceful

theorem Sends.runFunctor (h : Sends s) (hidle : s.stack = []) {functor : Functor}
    {funcs : List Functor} (hfuncs : s.funcs = functor :: funcs)
    (hpending : functor = .request .shutdown → s.conn.writeBufferList ≠ []) :
    Sends (runFunctor kernel S { s with funcs } functor) ∧
      Moved s .functor (runFunctor kernel S { s with funcs } functor) := by
  have hcounted := h.counted
  have hfunctors := h.functors
  rw [hfuncs, hidle] at hcounted
  rw [hfuncs, List.all_cons, Bool.and_eq_true] at hfunctors
  have hhanded : handed s = output s.conn := handed_of_flight (by rw [hidle]; rfl)
  have htail : (hle : funcs.countP isCall ≤ s.conn.sendNum) → Sends { s with funcs } := fun hle =>
    ⟨h.plain, h.conn, by simpa [hidle] using hle, h.stacked, h.frames, hfunctors.2, h.fetching,
      h.closing⟩
  cases functor with
  | connectDestroyed => simp [ofUser] at hfunctors
  | request request =>
      cases request with
      | call call =>
          rw [List.countP_cons_of_pos (by rfl), List.count_nil, Nat.add_zero] at hcounted
          have hsends := htail (Nat.le_of_succ_le hcounted)
          have hcover : ∀ {frames : List Frame}, ∀ above ∈ frames, ∀ below ∈ s.stack,
              (mayCover above below : Prop) := by
            rw [hidle]
            exact fun _ _ _ hbelow => absurd hbelow List.not_mem_nil
          cases call with
          | send msg =>
              refine ⟨hsends.push rfl (List.pairwise_pair.mpr rfl) hcover ?_ (by simp),
                .enters _ hfuncs ?_ rfl⟩
              · simpa [hidle] using hcounted
              · rw [hhanded]
                rfl
          | sendFile content offset length =>
              obtain ⟨hnode, hout⟩ := hsends.pushNode (.file content offset length)
              refine ⟨hnode.push rfl (List.pairwise_pair.mpr rfl) hcover ?_ (by simp),
                .enters _ hfuncs ?_ rfl⟩
              · simpa [hidle, ConnectionThread.pushNode] using hcounted
              · rw [hhanded]
                exact (List.append_nil _).trans hout
          | sendStream chunks =>
              obtain ⟨hnode, hout⟩ := hsends.pushNode (.stream 1 chunks)
              refine ⟨hnode.push rfl (List.pairwise_pair.mpr rfl) hcover ?_ (by simp),
                .enters _ hfuncs ?_ rfl⟩
              · simpa [hidle, ConnectionThread.pushNode] using hcounted
              · have hpayload : nodePending (.stream 1 chunks) = payload (.sendStream chunks) :=
                  nodePending_fileNode rfl
                rw [hpayload] at hout
                rw [hhanded]
                exact (List.append_nil _).trans hout
      | shutdown =>
          rw [List.countP_cons_of_neg (by simp [isCall])] at hcounted
          have hsends := htail (le_trans (Nat.le_add_right _ _) hcounted)
          simp only [ConnectionThread.runFunctor]
          rw [@shutdown_of_pending _ kernel S { s with funcs } h.conn.connected (hpending rfl)]
          exact ⟨hsends.closeOnEmpty, .enters _ hfuncs (List.append_nil _).symm rfl⟩
      | forceClose => simp [ofUser] at hfunctors

theorem Sends.handleEvent (h : Sends s) (hidle : s.stack = []) {revents : Revents}
    {result : ReadResult} (hup : (revents.POLLHUP && !revents.POLLIN) = false)
    (hcloses : revents.POLLIN || revents.POLLPRI || revents.POLLRDHUP →
      closes (.readCallback result) = false) :
    Sends (handleEvent revents result s) ∧
      Moved s (.handleEvent revents result) (handleEvent revents result s) := by
  unfold ConnectionThread.handleEvent
  split
  · exact ⟨h, .keeps rfl rfl rfl⟩
  · rw [hup, if_neg Bool.false_ne_true, List.nil_append]
    have hhanded : handed s = output s.conn := handed_of_flight (by rw [hidle]; rfl)
    refine ⟨h.push ?_ ?_ ?_ ?_ ?_, .keeps ?_ rfl rfl⟩
    · split
      · rename_i hread
        split <;> simp [inOpen, hcloses hread]
      · split <;> simp [inOpen]
    · split <;> split <;> simp [mayCover]
    · rw [hidle]
      exact fun _ _ _ hbelow => absurd hbelow List.not_mem_nil
    · have hcounted := h.counted
      rw [hidle] at hcounted ⊢
      split <;> split <;> simpa using hcounted
    · split <;> split <;> simp
    · rw [hhanded]
      apply handed_of_flight
      simp only [ConnectionThread.push, hidle]
      split <;> split <;> rfl

/-- Nobody closes the connection by force: not by `forceClose`, and neither the peer nor an error.
-/
def graceful : Event → Bool
  | .inLoop request | .elsewhere request => request ≠ .forceClose
  | .handleEvent revents result =>
      let reads := revents.POLLIN || revents.POLLPRI || revents.POLLRDHUP
      !(revents.POLLHUP && !revents.POLLIN) && !(reads && closes (.readCallback result))
  | _ => true

def runsShutdown (s : LoopThread σ) : Event → Bool
  | .inLoop .shutdown => inUser s
  | .functor => s.stack = [] && s.funcs.head? = some (.request .shutdown)
  | .resume => s.stack.head? = some .checkCloseOnEmpty && s.conn.closeOnEmpty
  | _ => false

/-- On an open connection a graceful event loses nothing, unless it is a `shutdown()` that finds no
node. -/
theorem Sends.step (hk : OnlyEAGAIN kernel) (h : Sends s) {event : Event}
    (hgraceful : graceful event) (hpending : runsShutdown s event → s.conn.writeBufferList ≠ [])
    (hstep : step kernel S s event = some s') : Sends s' ∧ Moved s event s' := by
  cases step_cases hstep with
  | idle => exact ⟨h, .keeps rfl rfl rfl⟩
  | handleEvent revents result hidle =>
      simp only [graceful, Bool.and_eq_true, Bool.not_eq_true'] at hgraceful
      refine h.handleEvent hidle hgraceful.1 fun hread => ?_
      simpa only [hread, Bool.true_and] using hgraceful.2
  | functor hidle hfuncs =>
      refine h.runFunctor hidle hfuncs ?_
      rintro rfl
      exact hpending (by simp [runsShutdown, hidle, hfuncs])
  | @resume frame _ _ hstack hexec =>
      have hput : frame = .checkCloseOnEmpty → s.conn.closeOnEmpty → s.conn.writeBufferList ≠ [] := by
        rintro rfl hclose
        exact hpending (by simp [runsShutdown, hstack, hclose])
      exact h.exec hk hstack hput hexec
  | inLoop huser hrequest =>
      refine h.requestInLoop huser (by simpa [graceful] using hgraceful) ?_ hrequest
      rintro rfl
      exact hpending huser
  | elsewhere request => exact h.requestElsewhere (by simpa [graceful] using hgraceful)
  | serverLoop hclosing => exact absurd h.closing hclosing

theorem sends_established (highWaterMarkLen : Option Nat) (inServerLoop : Bool) :
    Sends (@established σ highWaterMarkLen inServerLoop none) := by
  refine ⟨rfl, ⟨rfl, rfl, ?_⟩, le_refl _, List.pairwise_singleton _ _, rfl, rfl, ?_, rfl⟩
  · simp [established, TcpConnectionImpl.established]
  · simp [established]

end Sends

end Cooper.ThreadBooks
