/-
# Raft calls over TCP

`blockyard-raft`, `rpc.rs`, `tcp_transport.rs` and `server.rs`: a leader's `RaftNetwork` call is
one frame to the follower and one frame back, on a connection of its own.

`RaftRpcResponse` has no place for an error.  When the follower's Raft core fails, `dispatch_rpc`
makes up a response of the kind that was asked for, and the leader cannot tell it from one the
core has given: the in-process network of `network.rs` hands the error on (`RemoteError`), this
one does not.  An install-snapshot response with vote 0 is, to openraft, an accepted chunk.

What the network does to the bytes of an exchange is a `Link`: both frames can be cut off anywhere.
`sendRpc_eq_ok_iff` is the exchange as a whole, and `rpc_honest_iff` what it makes of the core's
failures.
-/
import Blockyard.Lib.Framing
import Blockyard.Raft.LogStore

open Std

namespace Blockyard.Raft

open Framing (frame readFrame)

/-! ## 1. Messages -/

/-- `openraft::raft::AppendEntriesRequest<TypeConfig>`. -/
structure AppendEntriesRequest where
  vote : Vote
  prevLogId : Option LogId
  entries : List Entry
  leaderCommit : Option LogId

/-- `openraft::raft::AppendEntriesResponse<u64>`. -/
inductive AppendEntriesResponse
  | success
  | partialSuccess (matching : Option LogId)
  | conflict
  | higherVote (vote : Vote)
  deriving DecidableEq, Repr

/-- `openraft::raft::VoteRequest<u64>`. -/
structure VoteRequest where
  vote : Vote
  lastLogId : Option LogId
  deriving DecidableEq, Repr

/-- `openraft::raft::VoteResponse<u64>`. -/
structure VoteResponse where
  vote : Vote
  voteGranted : Bool
  lastLogId : Option LogId
  deriving DecidableEq, Repr

/-- `openraft::raft::InstallSnapshotRequest<TypeConfig>`. -/
structure InstallSnapshotRequest where
  vote : Vote
  snapshotMeta : SnapshotMeta
  offset : Nat
  data : List UInt8
  done : Bool

/-- `openraft::raft::InstallSnapshotResponse<u64>`. -/
structure InstallSnapshotResponse where
  vote : Vote
  deriving DecidableEq, Repr

inductive RaftRpc
  | appendEntries (req : AppendEntriesRequest)
  | vote (req : VoteRequest)
  | installSnapshot (req : InstallSnapshotRequest)

inductive RaftRpcResponse
  | appendEntries (resp : AppendEntriesResponse)
  | vote (resp : VoteResponse)
  | installSnapshot (resp : InstallSnapshotResponse)
  deriving DecidableEq, Repr

/-- `openraft::error::Fatal<u64>`. -/
inductive Fatal
  | storageError (text : String)
  | panicked
  | stopped
  deriving DecidableEq, Repr

/-- `openraft::error::RaftError<u64, E>`. -/
inductive RaftError (ε : Type)
  | apiError (e : ε)
  | fatal (e : Fatal)
  deriving DecidableEq, Repr

/-- `openraft::error::InstallSnapshotError`: the segment that was expected, and the one that came,
each by its snapshot and offset. -/
inductive InstallSnapshotError
  | snapshotMismatch (expect got : String × Nat)
  deriving DecidableEq, Repr

/-- `std::io::ErrorKind`, as far as the transport makes them. -/
inductive ErrorKind
  | notFound | timedOut | invalidData | unexpectedEof | other
  deriving DecidableEq, Repr

/-- `std::io::Error`. -/
structure IoError where
  kind : ErrorKind
  text : String
  deriving DecidableEq, Repr

/-- A codec whose torn texts do not decode, as those of a JSON object do not. -/
structure TextCodec (α : Type) extends Codec α where
  fromSlice_torn : ∀ a bytes, bytes <+: toVec a → bytes ≠ toVec a → fromSlice bytes = none

/-- What the transport takes from serde_json, and the `Debug` text of a response. -/
structure RpcSerde where
  rpc : TextCodec RaftRpc
  response : TextCodec RaftRpcResponse
  debug : RaftRpcResponse → String
  /-- The error of a frame that does not decode. -/
  malformed : String

/-- The largest frame `read_frame` takes. -/
def frameLimit : Nat := 64 * 1024 * 1024

/-- `write_frame`: the bytes it writes. -/
def writeFrame {α : Type} (codec : TextCodec α) (msg : α) : List UInt8 := frame (codec.toVec msg)

/-- `read_frame`, from a stream that ends. -/
def readMessage {α : Type} (serde : RpcSerde) (codec : TextCodec α) (stream : List UInt8) :
    Except IoError α :=
  match readFrame frameLimit stream with
  | .error .unexpectedEof => .error ⟨.unexpectedEof, "early eof"⟩
  | .error (.tooLarge len) => .error ⟨.invalidData, s!"frame too large: {len} bytes"⟩
  | .ok buf =>
    match codec.fromSlice buf with
    | some msg => .ok msg
    | none => .error ⟨.invalidData, serde.malformed⟩

/-! ## 2. The follower -/

/-- The follower's Raft core, as it answers at one moment. -/
structure RaftCore where
  appendEntries : AppendEntriesRequest → Except (RaftError Empty) AppendEntriesResponse
  vote : VoteRequest → Except (RaftError Empty) VoteResponse
  installSnapshot : InstallSnapshotRequest →
    Except (RaftError InstallSnapshotError) InstallSnapshotResponse

def Vote.new (term nodeId : Nat) : Vote := ⟨term, nodeId, false⟩

def dispatchRpc (core : RaftCore) : RaftRpc → RaftRpcResponse
  | .appendEntries req =>
    match core.appendEntries req with
    | .ok resp => .appendEntries resp
    | .error _ => .appendEntries (.higherVote (Vote.new 0 0))
  | .vote req =>
    match core.vote req with
    | .ok resp => .vote resp
    | .error _ => .vote { vote := Vote.new 0 0, voteGranted := false, lastLogId := none }
  | .installSnapshot req =>
    match core.installSnapshot req with
    | .ok resp => .installSnapshot resp
    | .error _ => .installSnapshot { vote := Vote.new 0 0 }

/-- `handle_connection`: the bytes it writes back. -/
def handleConnection (serde : RpcSerde) (core : RaftCore) (stream : List UInt8) :
    Except IoError (List UInt8) :=
  match readMessage serde serde.rpc stream with
  | .error e => .error e
  | .ok rpc => .ok (writeFrame serde.response (dispatchRpc core rpc))

/-! ## 3. The leader -/

/-- `TcpNetworkConnection`, without its timeouts. -/
structure TcpNetworkConnection where
  target : Nat
  peers : HashMap Nat String

/-- What the network does to one exchange. -/
structure Link where
  connectInTime : Bool
  connect : Except IoError Unit
  setNodelay : Except IoError Unit
  /-- The exchange ends within `rpc_timeout`. -/
  inTime : Bool
  write : Except IoError Unit
  /-- How many bytes of the request reach the follower. -/
  arrives : Nat
  /-- How many bytes of the response reach the leader. -/
  returns : Nat

/-- `send_rpc`, to a follower with this core. -/
def sendRpc (serde : RpcSerde) (conn : TcpNetworkConnection) (link : Link) (core : RaftCore)
    (rpc : RaftRpc) : Except IoError RaftRpcResponse :=
  match conn.peers[conn.target]? with
  | none => .error ⟨.notFound, s!"no address registered for node {conn.target}"⟩
  | some addr =>
    if link.connectInTime = false then
      .error ⟨.timedOut, s!"connect timeout to node {conn.target} at {addr}"⟩
    else
      match link.connect, link.setNodelay with
      | .error e, _ => .error e
      | .ok (), .error e => .error e
      | .ok (), .ok () =>
        if link.inTime = false then
          .error ⟨.timedOut, s!"RPC timeout to node {conn.target} at {addr}"⟩
        else
          match link.write with
          | .error e => .error e
          | .ok () =>
            match handleConnection serde core ((writeFrame serde.rpc rpc).take link.arrives) with
            -- the follower closes the connection
            | .error _ => readMessage serde serde.response []
            | .ok reply => readMessage serde serde.response (reply.take link.returns)

/-- `openraft::error::RPCError`; the transport makes no other. -/
inductive RpcError
  | network (e : IoError)
  deriving DecidableEq, Repr

/-- The end of the three calls: a response of another kind is an error. -/
def expectResponse {α : Type} (serde : RpcSerde) (pick : RaftRpcResponse → Option α) :
    Except IoError RaftRpcResponse → Except RpcError α
  | .error e => .error (.network e)
  | .ok resp =>
    match pick resp with
    | some r => .ok r
    | none =>
      .error (.network ⟨.invalidData, s!"unexpected response variant: {serde.debug resp}"⟩)

section Calls

variable (serde : RpcSerde) (conn : TcpNetworkConnection) (link : Link) (core : RaftCore)

def appendEntries (rpc : AppendEntriesRequest) : Except RpcError AppendEntriesResponse :=
  expectResponse serde
    (fun | .appendEntries r => some r | _ => none)
    (sendRpc serde conn link core (.appendEntries rpc))

def vote (rpc : VoteRequest) : Except RpcError VoteResponse :=
  expectResponse serde (fun | .vote r => some r | _ => none)
    (sendRpc serde conn link core (.vote rpc))

def installSnapshot (rpc : InstallSnapshotRequest) : Except RpcError InstallSnapshotResponse :=
  expectResponse serde (fun | .installSnapshot r => some r | _ => none)
    (sendRpc serde conn link core (.installSnapshot rpc))

def networkCall : RaftRpc → Except RpcError RaftRpcResponse
  | .appendEntries req => (appendEntries serde conn link core req).map .appendEntries
  | .vote req => (vote serde conn link core req).map .vote
  | .installSnapshot req => (installSnapshot serde conn link core req).map .installSnapshot

end Calls

/-! ## 4. Failures of the core -/

def RaftCore.answer (core : RaftCore) : RaftRpc → Option RaftRpcResponse
  | .appendEntries req => (core.appendEntries req).toOption.map .appendEntries
  | .vote req => (core.vote req).toOption.map .vote
  | .installSnapshot req => (core.installSnapshot req).toOption.map .installSnapshot

/-- The response `dispatch_rpc` makes up for a core that fails. -/
def madeUp : RaftRpc → RaftRpcResponse
  | .appendEntries _ => .appendEntries (.higherVote (Vote.new 0 0))
  | .vote _ => .vote { vote := Vote.new 0 0, voteGranted := false, lastLogId := none }
  | .installSnapshot _ => .installSnapshot { vote := Vote.new 0 0 }

theorem dispatchRpc_eq (core : RaftCore) (rpc : RaftRpc) :
    dispatchRpc core rpc = (core.answer rpc).getD (madeUp rpc) := by
  cases rpc with
  | appendEntries req =>
    simp only [dispatchRpc, RaftCore.answer]
    cases core.appendEntries req <;> rfl
  | vote req =>
    simp only [dispatchRpc, RaftCore.answer]
    cases core.vote req <;> rfl
  | installSnapshot req =>
    simp only [dispatchRpc, RaftCore.answer]
    cases core.installSnapshot req <;> rfl

section Exchange

variable {serde : RpcSerde} {conn : TcpNetworkConnection} {link : Link} {core : RaftCore}
  {rpc : RaftRpc} {resp : RaftRpcResponse}

/-- The network carries the request there and the response back, and neither is too large. -/
structure Exchanges (serde : RpcSerde) (conn : TcpNetworkConnection) (link : Link) (rpc : RaftRpc)
    (resp : RaftRpcResponse) : Prop where
  known : conn.target ∈ conn.peers
  connected : link.connectInTime = true ∧ link.connect = .ok () ∧ link.setNodelay = .ok ()
  inTime : link.inTime = true
  written : link.write = .ok ()
  request : (serde.rpc.toVec rpc).length ≤ frameLimit ∧
    4 + (serde.rpc.toVec rpc).length ≤ link.arrives
  response : (serde.response.toVec resp).length ≤ frameLimit ∧
    4 + (serde.response.toVec resp).length ≤ link.returns

theorem readMessage_eq_ok_iff {α : Type} {codec : TextCodec α} {n : Nat} {msg msg' : α} :
    readMessage serde codec ((writeFrame codec msg).take n) = .ok msg' ↔
      (codec.toVec msg).length ≤ frameLimit ∧ 4 + (codec.toVec msg).length ≤ n ∧ msg' = msg := by
  rw [← Framing.received_iff codec.fromSlice_toVec codec.fromSlice_torn
    (by decide : frameLimit < 2 ^ 32), readMessage, writeFrame]
  cases readFrame frameLimit ((frame (codec.toVec msg)).take n) with
  | error e => cases e <;> simp
  | ok buf => cases hmsg : codec.fromSlice buf <;> simp [hmsg]

/-- The follower answers what arrives whole, and nothing else. -/
theorem handleConnection_eq_ok_iff {n : Nat} {reply : List UInt8} :
    handleConnection serde core ((writeFrame serde.rpc rpc).take n) = .ok reply ↔
      ((serde.rpc.toVec rpc).length ≤ frameLimit ∧ 4 + (serde.rpc.toVec rpc).length ≤ n) ∧
        reply = writeFrame serde.response (dispatchRpc core rpc) := by
  unfold handleConnection
  cases hread : readMessage serde serde.rpc ((writeFrame serde.rpc rpc).take n) with
  | ok rpc' =>
    obtain ⟨hlimit, hn, rfl⟩ := readMessage_eq_ok_iff.mp hread
    simp [hlimit, hn, eq_comm]
  | error e =>
    constructor
    · intro h
      cases h
    · rintro ⟨⟨hlimit, hn⟩, -⟩
      rw [readMessage_eq_ok_iff.mpr ⟨hlimit, hn, rfl⟩] at hread
      cases hread

/-- **The exchange as a whole**: the leader gets what `dispatch_rpc` has answered, or an error. -/
theorem sendRpc_eq_ok_iff :
    sendRpc serde conn link core rpc = .ok resp ↔
      resp = dispatchRpc core rpc ∧ Exchanges serde conn link rpc resp := by
  constructor
  · intro h
    unfold sendRpc at h
    split at h
    · cases h
    next addr haddr =>
    split at h
    · cases h
    next hconnect =>
    split at h
    · cases h
    · cases h
    next hok hnodelay =>
    split at h
    · cases h
    next htime =>
    split at h
    · cases h
    next hwrite =>
    split at h
    · cases h
    next reply hreply =>
    obtain ⟨hrequest, rfl⟩ := handleConnection_eq_ok_iff.mp hreply
    obtain ⟨hlimit, hn, rfl⟩ := readMessage_eq_ok_iff.mp h
    exact ⟨rfl, mem_of_getElem? haddr, ⟨by simpa using hconnect, hok, hnodelay⟩,
      by simpa using htime, hwrite, hrequest, hlimit, hn⟩
  · rintro ⟨rfl, h⟩
    obtain ⟨addr, haddr⟩ := exists_getElem?_of_mem h.known
    have hreply : handleConnection serde core ((writeFrame serde.rpc rpc).take link.arrives)
        = .ok (writeFrame serde.response (dispatchRpc core rpc)) :=
      handleConnection_eq_ok_iff.mpr ⟨h.request, rfl⟩
    simp only [sendRpc, haddr, h.connected, h.inTime, h.written, hreply]
    exact readMessage_eq_ok_iff.mpr ⟨h.response.1, h.response.2, rfl⟩

/-- A response has the kind of its request, so the call does not turn it down. -/
theorem networkCall_eq_ok_iff :
    networkCall serde conn link core rpc = .ok resp ↔
      sendRpc serde conn link core rpc = .ok resp := by
  cases hsend : sendRpc serde conn link core rpc with
  | error e =>
    cases rpc <;>
      simp [networkCall, appendEntries, vote, installSnapshot, hsend, expectResponse, Except.map]
  | ok r =>
    obtain ⟨rfl, -⟩ := sendRpc_eq_ok_iff.mp hsend
    cases rpc with
    | appendEntries req =>
      simp only [networkCall, appendEntries, hsend, dispatchRpc]
      cases core.appendEntries req <;> simp [expectResponse, Except.map]
    | vote req =>
      simp only [networkCall, vote, hsend, dispatchRpc]
      cases core.vote req <;> simp [expectResponse, Except.map]
    | installSnapshot req =>
      simp only [networkCall, installSnapshot, hsend, dispatchRpc]
      cases core.installSnapshot req <;> simp [expectResponse, Except.map]

/-- **The promise** for one call: what the leader gets as a response is the core's response to its
request. -/
def HonestCall (serde : RpcSerde) (conn : TcpNetworkConnection) (link : Link) (core : RaftCore)
    (rpc : RaftRpc) : Prop :=
  ∀ resp, networkCall serde conn link core rpc = .ok resp → core.answer rpc = some resp

/-- **When a call is honest**: exactly when the core did not fail, or the network keeps the
response that was made up from the leader. -/
theorem rpc_honest_iff (serde : RpcSerde) (conn : TcpNetworkConnection) (link : Link)
    (core : RaftCore) (rpc : RaftRpc) :
    HonestCall serde conn link core rpc ↔
      (core.answer rpc).isSome ∨ ¬ Exchanges serde conn link rpc (madeUp rpc) := by
  have hcall : ∀ resp, networkCall serde conn link core rpc = .ok resp ↔
      resp = (core.answer rpc).getD (madeUp rpc) ∧ Exchanges serde conn link rpc resp := by
    intro resp
    rw [networkCall_eq_ok_iff, sendRpc_eq_ok_iff, dispatchRpc_eq]
  cases hanswer : core.answer rpc with
  | some answer =>
    rw [hanswer] at hcall
    refine iff_of_true (fun resp hresp => ?_) (Or.inl rfl)
    rw [hanswer, ((hcall resp).mp hresp).1, Option.getD_some]
  | none =>
    rw [hanswer] at hcall
    constructor
    · intro h
      refine Or.inr fun hexchange => ?_
      have := h _ ((hcall _).mpr ⟨rfl, hexchange⟩)
      rw [hanswer] at this
      cases this
    · rintro (h | h)
      · cases h
      · intro resp hresp
        obtain ⟨rfl, hexchange⟩ := (hcall resp).mp hresp
        exact absurd hexchange h

end Exchange

/-! ## 5. A refused snapshot chunk -/

deriving instance Countable for LeaseRequest, ExtentMappingEntry, MetadataRequest, EntryPayload,
  Entry, Vote, AppendEntriesRequest, VoteRequest, InstallSnapshotRequest, RaftRpc,
  AppendEntriesResponse, VoteResponse, InstallSnapshotResponse, RaftRpcResponse

/-- The assumption on serde_json can be met, with a short text for any one message. -/
theorem TextCodec.exists_short {α : Type} [Countable α] (a : α) :
    ∃ codec : TextCodec α, (codec.toVec a).length = 1 := by
  classical
  obtain ⟨f, hf⟩ := exists_injective_nat α
  let g : α → Nat := fun x => Equiv.swap (f a) 0 (f x)
  have hg : Function.Injective g := (Equiv.injective _).comp hf
  -- a text is as many ones as the number of its message, and a zero
  let text : α → List UInt8 := fun x => List.replicate (g x) 1 ++ [0]
  have htext : ∀ x y, text y <+: text x → y = x := by
    intro x y h
    have hle := h.length_le
    simp only [text, List.length_append, List.length_replicate, List.length_singleton] at hle
    have hzero : (text x)[g y]? = some 0 := by
      obtain ⟨rest, hrest⟩ := h
      rw [← hrest]
      simp [text]
    by_contra hne
    have hlt : g y < g x := Nat.lt_of_le_of_ne (by omega) fun heq => hne (hg heq)
    rw [List.getElem?_append_left (by simpa using hlt)] at hzero
    simp [hlt] at hzero
  refine ⟨{
    toVec := text
    fromSlice := fun bytes => if h : ∃ x, text x = bytes then some h.choose else none
    fromSlice_toVec := ?_
    fromSlice_torn := ?_ }, ?_⟩
  · intro x
    have h : ∃ y, text y = text x := ⟨x, rfl⟩
    rw [dif_pos h]
    exact congrArg some (htext x _ (by rw [h.choose_spec]))
  · intro x bytes hprefix hne
    refine dif_neg ?_
    rintro ⟨y, rfl⟩
    exact hne (by rw [htext x y hprefix])
  · simp [text, g]

def snapshotChunk : InstallSnapshotRequest where
  vote := ⟨2, 1, true⟩
  snapshotMeta := ⟨none, ⟨none, [], []⟩, "s"⟩
  offset := 0
  data := []
  done := true

def stoppedCore : RaftCore where
  appendEntries _ := .error (.fatal .stopped)
  vote _ := .error (.fatal .stopped)
  installSnapshot _ := .error (.fatal .stopped)

def clearLink : Link := ⟨true, .ok (), .ok (), true, .ok (), 100, 100⟩

/-- **A chunk that a stopped core never took comes back as accepted.** -/
theorem refused_chunk_is_acknowledged :
    ∃ serde : RpcSerde, stoppedCore.installSnapshot snapshotChunk = .error (.fatal .stopped) ∧
      installSnapshot serde ⟨2, (∅ : HashMap Nat String).insert 2 "b:1"⟩ clearLink stoppedCore
        snapshotChunk = .ok ⟨Vote.new 0 0⟩ ∧
      ¬ HonestCall serde ⟨2, (∅ : HashMap Nat String).insert 2 "b:1"⟩ clearLink stoppedCore
        (.installSnapshot snapshotChunk) := by
  obtain ⟨rpc, hrpc⟩ := TextCodec.exists_short (.installSnapshot snapshotChunk : RaftRpc)
  obtain ⟨response, hresponse⟩ :=
    TextCodec.exists_short (.installSnapshot ⟨Vote.new 0 0⟩ : RaftRpcResponse)
  let serde : RpcSerde := ⟨rpc, response, fun _ => "", ""⟩
  have hexchange : Exchanges serde ⟨2, (∅ : HashMap Nat String).insert 2 "b:1"⟩ clearLink
      (.installSnapshot snapshotChunk) (.installSnapshot ⟨Vote.new 0 0⟩) := by
    constructor
    · simp
    · exact ⟨rfl, rfl, rfl⟩
    · rfl
    · rfl
    · exact ⟨hrpc.trans_le (by decide), by rw [hrpc]; decide⟩
    · exact ⟨hresponse.trans_le (by decide), by rw [hresponse]; decide⟩
  have hsend : sendRpc serde ⟨2, (∅ : HashMap Nat String).insert 2 "b:1"⟩ clearLink stoppedCore
      (.installSnapshot snapshotChunk) = .ok (.installSnapshot ⟨Vote.new 0 0⟩) :=
    sendRpc_eq_ok_iff.mpr ⟨rfl, hexchange⟩
  refine ⟨serde, rfl, ?_, ?_⟩
  · rw [installSnapshot, hsend]
    rfl
  · intro h
    have hnone := h _ (networkCall_eq_ok_iff.mpr hsend)
    cases hnone

end Blockyard.Raft
