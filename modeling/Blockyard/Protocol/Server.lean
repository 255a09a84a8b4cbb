/-
# The data-plane server

`blockyard-protocol`, `version.rs` and `server.rs`: a connection starts with one handshake, in which
the version is negotiated and, if the server has an `AuthProvider`, the token is checked; then
requests come in, one frame each, until something unexpected ends the connection.

The server is generic in its `DataPlaneHandler`, as the source is.  `handle_connection` names what
the handshake found out about the peer `_peer_identity` and passes it to NO ONE: the handler sees
the request only.  The model keeps the identity in the state of the connection, where no step reads
it, so that statements can speak of the peer a connection was authenticated as.
-/
import Blockyard.Storage.Service
import Blockyard.Lib.Run

open Machine

namespace Blockyard.Protocol

open Storage (WriteExtentRequest WriteExtentResponse ReadExtentRequest ReadExtentResponse)

/-! ## 1. Handshake -/

structure AuthToken where
  identity : String
  issuedAtMs : Nat
  expiresAtMs : Nat
  signature : String
  deriving DecidableEq, Repr

/-- `AuthProvider`, as far as the server uses it; the provider reads the clock.  An error is kept as
its text. -/
structure AuthProvider where
  validateToken : (nowMs : Nat) → AuthToken → Except String PeerIdentity

def currentProtocolVersion : Nat := 1

def minProtocolVersion : Nat := 1

structure HandshakeRequest where
  protocolVersion : Nat
  nodeId : Option NodeId
  sessionId : Option SessionId
  features : List String
  authToken : Option AuthToken
  deriving DecidableEq, Repr

structure HandshakeResponse where
  protocolVersion : Nat
  nodeId : NodeId
  accepted : Bool
  message : Option String
  supportedFeatures : List String
  authenticated : Bool
  deriving DecidableEq, Repr

def negotiateVersion (request : HandshakeRequest) (localNodeId : NodeId) : HandshakeResponse :=
  if request.protocolVersion < minProtocolVersion then
    { protocolVersion := currentProtocolVersion
      nodeId := localNodeId
      accepted := false
      message := some (s!"client protocol version {request.protocolVersion} is below minimum "
        ++ s!"supported version {minProtocolVersion}")
      supportedFeatures := []
      authenticated := false }
  else
    { protocolVersion := min request.protocolVersion currentProtocolVersion
      nodeId := localNodeId
      accepted := true
      message := none
      supportedFeatures := []
      authenticated := false }

def negotiateVersionWithAuth (nowMs : Nat) (request : HandshakeRequest) (localNodeId : NodeId)
    (authProvider : Option AuthProvider) : HandshakeResponse × Option PeerIdentity :=
  let response := negotiateVersion request localNodeId
  if ¬ response.accepted then (response, none)
  else
    match authProvider with
    | none => (response, none)
    | some provider =>
      match request.authToken with
      | none =>
        ({ response with
            accepted := false
            authenticated := false
            message := some "authentication required but no token provided" }, none)
      | some token =>
        match provider.validateToken nowMs token with
        | .ok identity => ({ response with authenticated := true }, some identity)
        | .error e =>
          ({ response with
              accepted := false
              authenticated := false
              message := some s!"authentication failed: {e}" }, none)

/-- **A peer is who its token says**, where a provider is asked. -/
theorem valid_of_accepted {nowMs : Nat} {request : HandshakeRequest} {localNodeId : NodeId}
    {provider : AuthProvider}
    (h : (negotiateVersionWithAuth nowMs request localNodeId (some provider)).1.accepted = true) :
    ∃ token peer, request.authToken = some token ∧ provider.validateToken nowMs token = .ok peer ∧
      (negotiateVersionWithAuth nowMs request localNodeId (some provider)).2 = some peer := by
  unfold negotiateVersionWithAuth at h ⊢
  dsimp only at h ⊢
  split
  · next hrefused =>
    rw [if_pos hrefused] at h
    exact absurd h hrefused
  · next haccepted =>
    rw [if_neg haccepted] at h
    cases htoken : request.authToken with
    | none => simp [htoken] at h
    | some token =>
      cases hvalid : provider.validateToken nowMs token with
      | error e => simp [htoken, hvalid] at h
      | ok peer => exact ⟨token, peer, rfl, hvalid, by simp [hvalid]⟩

/-! ## 2. Connections -/

inductive ProtocolMessage
  | handshakeReq (request : HandshakeRequest)
  | handshakeResp (response : HandshakeResponse)
  | writeReq (request : WriteExtentRequest)
  | writeResp (response : WriteExtentResponse)
  | readReq (request : ReadExtentRequest)
  | readResp (response : ReadExtentResponse)

/-- What the server reads next from a connection. -/
inductive Frame
  /-- A frame whose JSON is a bare handshake request, as `handle_connection` expects it first. -/
  | handshake (request : HandshakeRequest)
  /-- A frame whose JSON is a message, and the raw bytes that follow it. -/
  | message (msg : ProtocolMessage) (payload : Bytes)
  /-- The end of the stream, a frame that is too large or not JSON, a shutdown. -/
  | broken

/-- What the server sends back. -/
inductive Reply
  | handshake (response : HandshakeResponse)
  | write (response : WriteExtentResponse)
  | read (response : ReadExtentResponse) (data : Option Bytes)
  | nothing

/-- The answer reports a failure, and carries no data. -/
def Reply.Failed : Reply → Prop
  | .write response => response.success = false
  | .read response data => data = none ∧ response.success = false
  | _ => False

/-- `DataPlaneHandler`, over a state `η` and what a call may meet, `ε`.  A read answers `none` when
it panics. -/
structure DataPlaneHandler (η ε : Type) where
  handleWrite : ε → η → WriteExtentRequest → Bytes → η × WriteExtentResponse
  handleRead : ε → η → ReadExtentRequest → η × Option (ReadExtentResponse × Option Bytes)

/-- Where a connection is in `handle_connection`. -/
inductive Connection
  | greeting
  /-- The request loop.  The peer is what the source drops. -/
  | serving (peer : Option PeerIdentity)
  | closed
  deriving DecidableEq

/-- The server: `DataPlaneServer`, less its listener and handler. -/
structure DataPlaneServer where
  nodeId : NodeId
  authProvider : Option AuthProvider

section Serve

variable {η ε : Type}

/-- One message in the request loop of `handle_connection`. -/
def serveMessage (handler : DataPlaneHandler η ε) (env : ε) (peer : Option PeerIdentity) (s : η)
    (msg : ProtocolMessage) (payload : Bytes) : (η × Connection) × Reply :=
  match msg with
  | .writeReq request =>
    -- `read_exact` on the payload fails if the peer sends less
    if payload.length = request.payloadSize then
      let (s, response) := handler.handleWrite env s request payload
      ((s, .serving peer), .write response)
    else ((s, .closed), .nothing)
  | .readReq request =>
    match handler.handleRead env s request with
    | (s, some (response, data)) => ((s, .serving peer), .read response data)
    | (s, none) => ((s, .closed), .nothing)
  | _ => ((s, .closed), .nothing)

/-- One frame of a connection: `handle_connection`, cut where it waits for the peer. -/
def handleFrame (server : DataPlaneServer) (handler : DataPlaneHandler η ε) (nowMs : Nat) (env : ε)
    (s : η) : Connection → Frame → (η × Connection) × Reply
  | .greeting, .handshake request =>
    let (response, peer) :=
      negotiateVersionWithAuth nowMs request server.nodeId server.authProvider
    if response.accepted then ((s, .serving peer), .handshake response)
    else ((s, .closed), .handshake response)
  | .serving peer, .message msg payload => serveMessage handler env peer s msg payload
  | _, _ => ((s, .closed), .nothing)

/-! ## 3. What a frame can do -/

variable {server : DataPlaneServer} {handler : DataPlaneHandler η ε} {nowMs : Nat} {env : ε} {s : η}
  {peer : Option PeerIdentity} {payload : Bytes}

theorem handleFrame_write {request : WriteExtentRequest}
    (hsize : payload.length = request.payloadSize) :
    handleFrame server handler nowMs env s (.serving peer) (.message (.writeReq request) payload)
      = (((handler.handleWrite env s request payload).1, .serving peer),
          .write (handler.handleWrite env s request payload).2) := by
  simp [handleFrame, serveMessage, hsize]

theorem handleFrame_read {request : ReadExtentRequest} {s' : η} {response : ReadExtentResponse}
    {data : Option Bytes} (h : handler.handleRead env s request = (s', some (response, data))) :
    handleFrame server handler nowMs env s (.serving peer) (.message (.readReq request) payload)
      = ((s', .serving peer), .read response data) := by
  simp only [handleFrame, serveMessage, h]

theorem handleFrame_read_none {request : ReadExtentRequest} {s' : η}
    (h : handler.handleRead env s request = (s', none)) :
    handleFrame server handler nowMs env s (.serving peer) (.message (.readReq request) payload)
      = ((s', .closed), .nothing) := by
  simp only [handleFrame, serveMessage, h]

/-- **What a frame can do** to the handler's state: a write, a read, or nothing. -/
theorem handleFrame_cases (server : DataPlaneServer) (handler : DataPlaneHandler η ε) (nowMs : Nat)
    (env : ε) (s : η) (conn : Connection) (frame : Frame) :
    (∃ request payload, frame = .message (.writeReq request) payload ∧
        (handleFrame server handler nowMs env s conn frame).1.1
          = (handler.handleWrite env s request payload).1) ∨
      (∃ request payload, frame = .message (.readReq request) payload ∧
        (handleFrame server handler nowMs env s conn frame).1.1
          = (handler.handleRead env s request).1) ∨
      (handleFrame server handler nowMs env s conn frame).1.1 = s := by
  cases conn with
  | closed => exact Or.inr (Or.inr rfl)
  | greeting =>
    refine Or.inr (Or.inr ?_)
    cases frame with
    | handshake request => simp only [handleFrame]; split <;> rfl
    | message msg payload => rfl
    | broken => rfl
  | serving peer =>
    cases frame with
    | handshake request => exact Or.inr (Or.inr rfl)
    | broken => exact Or.inr (Or.inr rfl)
    | message msg payload =>
      cases msg with
      | writeReq request =>
        by_cases hsize : payload.length = request.payloadSize
        · exact Or.inl ⟨request, payload, rfl, by rw [handleFrame_write hsize]⟩
        · refine Or.inr (Or.inr ?_)
          simp [handleFrame, serveMessage, hsize]
      | readReq request =>
        refine Or.inr (Or.inl ⟨request, payload, rfl, ?_⟩)
        rcases h : handler.handleRead env s request with ⟨s', _ | ⟨response, data⟩⟩
        · rw [handleFrame_read_none h]
        · rw [handleFrame_read h]
      | handshakeReq | handshakeResp | writeResp | readResp => exact Or.inr (Or.inr rfl)

/-- **Who is served** where a provider is asked: whoever was served before, or has just shown a
token for itself. -/
theorem serving_of_handleFrame {conn : Connection} {frame : Frame} {served : Option PeerIdentity}
    {provider : AuthProvider} (hserver : server.authProvider = some provider)
    (h : (handleFrame server handler nowMs env s conn frame).1.2 = .serving served) :
    conn = .serving served ∨ ∃ request token peer, frame = .handshake request ∧
      request.authToken = some token ∧ provider.validateToken nowMs token = .ok peer ∧
      served = some peer := by
  cases conn with
  | closed => cases h
  | greeting =>
    cases frame with
    | message msg payload => cases h
    | broken => cases h
    | handshake request =>
      simp only [handleFrame, hserver] at h
      split at h
      · next haccepted =>
        obtain ⟨token, peer, htoken, hvalid, hpeer⟩ := valid_of_accepted haccepted
        rw [hpeer] at h
        exact Or.inr ⟨request, token, peer, rfl, htoken, hvalid, (Connection.serving.inj h).symm⟩
      · cases h
  | serving peer =>
    refine Or.inl ?_
    cases frame with
    | handshake request => cases h
    | broken => cases h
    | message msg payload =>
      cases msg with
      | writeReq request =>
        simp only [handleFrame, serveMessage] at h
        split at h
        · exact h
        · cases h
      | readReq request =>
        rcases hread : handler.handleRead env s request with ⟨s', _ | ⟨response, data⟩⟩
        · rw [handleFrame_read_none hread] at h
          cases h
        · rw [handleFrame_read hread] at h
          exact h
      | handshakeReq | handshakeResp | writeResp | readResp => cases h

end Serve

end Blockyard.Protocol
