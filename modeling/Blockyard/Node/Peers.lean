/-
# Whom a node serves

`blockyard`, `node.rs` and `blockyard-protocol`, `server.rs`: a node that is given an
authentication provider asks it once per connection, in the handshake, and never again.  Between
the handshake and a request there may be frames on other connections, log entries, changes of the
access control list and restarts.

`served_peers_were_issued_tokens`: in every run, a connection that is served has shown a token in
its OWN handshake, one that `create_token` made for the peer it is served as and that had not
expired then.  That is all: the token may have expired since, and no restart lets a connection
through that has not shown one.
-/
import Blockyard.Node.DataPlane
import Blockyard.Protocol.Auth

open Machine

namespace Blockyard.Node

open Storage Protocol

/-- **A connection that is served has shown a token** to the provider, in its own handshake. -/
theorem authenticated_run {x : Externals} {ovf : Overflow} {provider : AuthProvider}
    {n : ServedNode} (hstart : ∀ conn, n.connections conn = .greeting) (events : List ServedEvent)
    {conn : Nat} {served : Option PeerIdentity}
    (h : (n.after x ovf (some provider) events).connections conn = .serving served) :
    ∃ nowMs env request token peer, .frame conn nowMs env (.handshake request) ∈ events ∧
      request.authToken = some token ∧ provider.validateToken nowMs token = .ok peer ∧
      served = some peer := by
  refine runState_history (P := fun seen (n : ServedNode) => n.connections conn = .serving served →
    ∃ nowMs env request token peer, .frame conn nowMs env (.handshake request) ∈ seen ∧
      request.authToken = some token ∧ provider.validateToken nowMs token = .ok peer ∧
      served = some peer) ?_ ?_ h
  · intro hserving
    rw [hstart conn] at hserving
    cases hserving
  · intro before event later _ ih hserving
    -- it was served before, or this event is its handshake
    by_cases hbefore : (runState (ServedNode.step x ovf (some provider)) n before).connections conn
        = .serving served
    · obtain ⟨nowMs, env, request, token, peer, hmem, hshown⟩ := ih hbefore
      exact ⟨nowMs, env, request, token, peer, List.mem_append_left _ hmem, hshown⟩
    cases event with
    | frame conn' nowMs env frame =>
      by_cases hconn : conn' = conn
      · subst hconn
        have hnow : (handleFrame _ _ nowMs env _ _ frame).1.2 = .serving served :=
          (Function.update_self ..).symm.trans hserving
        rcases serving_of_handleFrame rfl hnow with hsame | ⟨request, token, peer, rfl, hshown⟩
        · exact absurd hsame hbefore
        · exact ⟨nowMs, env, request, token, peer, by simp, hshown⟩
      · exact absurd ((Function.update_of_ne (Ne.symm hconn) ..).symm.trans hserving) hbefore
    | restart inventory order scan =>
      have hdropped : dropped ((runState (ServedNode.step x ovf (some provider)) n
          before).connections conn) = .serving served := hserving
      revert hdropped
      cases (runState (ServedNode.step x ovf (some provider)) n before).connections conn <;>
        simp [dropped]
    | applied | grant | revoke | removeVolume | disk => exact absurd hserving hbefore

/-- **EVERY PEER THAT IS SERVED WAS ISSUED A TOKEN.**  On a node with a shared secret, from any
state in which no connection has been greeted, whatever comes in on whichever connections and
however often the node restarts: a connection that is served showed, in a handshake of its own, a
token that had not expired, that was valid, and that had been created for the peer it is served
as. -/
theorem served_peers_were_issued_tokens (x : Externals) (ovf : Overflow)
    (hmac : Bytes → Bytes → BitVec 256) (uuid : UuidParser)
    (secret : SharedSecretAuth) (calls : List CreateCall) (n : ServedNode)
    (hstart : ∀ conn, n.connections conn = .greeting) (events : List ServedEvent)
    (hassumed : ∀ conn nowMs env request token,
      .frame conn nowMs env (.handshake request) ∈ events → request.authToken = some token →
        token.Fits ∧ SharedSecretAuth.CollisionFree hmac secret calls token ∧
          SharedSecretAuth.Unforged hmac secret calls token)
    (conn : Nat) (served : Option PeerIdentity)
    (h : (n.after x ovf (some (secret.provider hmac uuid)) events).connections conn
      = .serving served) :
    ∃ nowMs env request token, .frame conn nowMs env (.handshake request) ∈ events ∧
      request.authToken = some token ∧ nowMs < token.expiresAtMs ∧
      ∃ call ∈ calls, served = some call.identity ∧
        secret.createToken hmac call.nowMs call.identity call.ttlMs = .ok token ∧
        secret.validateToken hmac uuid nowMs token = .ok call.identity := by
  obtain ⟨nowMs, env, request, token, peer, hmem, htoken, hvalid, hserved⟩ :=
    authenticated_run hstart events h
  obtain ⟨hfits, hfree, hunforged⟩ := hassumed conn nowMs env request token hmem htoken
  obtain ⟨hlive, hvalid', call, hcall, rfl, hcreated⟩ :=
    SharedSecretAuth.created_of_provider hfits hfree hunforged hvalid
  exact ⟨nowMs, env, request, token, hmem, htoken, hlive, call, hcall, hserved, hcreated, hvalid'⟩

open SharedSecretAuth (sampleAuth sampleHmac sampleCall)

def sampleToken : AuthToken where
  identity := toString (PeerIdentity.client ⟨7#128⟩)
  issuedAtMs := 1000
  expiresAtMs := 61000
  signature := sampleAuth.computeSignature sampleHmac (toString (PeerIdentity.client ⟨7#128⟩)) 1000
    61000

theorem served_peers_were_issued_tokens_sample :
    ∃ nowMs env request token, .frame 0 nowMs env (.handshake request)
          ∈ [ServedEvent.frame 0 60999 calmHandling (.handshake (hello (some sampleToken)))] ∧
      request.authToken = some token ∧ nowMs < token.expiresAtMs ∧
      ∃ call ∈ [sampleCall], some (PeerIdentity.client ⟨7#128⟩) = some call.identity ∧
        sampleAuth.createToken sampleHmac call.nowMs call.identity call.ttlMs = .ok token ∧
        sampleAuth.validateToken sampleHmac .inverse nowMs token = .ok call.identity := by
  have hmade : sampleAuth.createToken sampleHmac 1000 (.client ⟨7#128⟩) 60000 = .ok sampleToken :=
    rfl
  refine served_peers_were_issued_tokens (jsonExternals sampleBlake3) .wrapping sampleHmac
    .inverse sampleAuth _ oneDiskServed (fun _ => rfl) _ ?_ 0 _ ?_
  · intro conn nowMs env request token hmem htoken
    cases List.mem_singleton.mp hmem
    obtain rfl : sampleToken = token := Option.some.inj htoken
    refine ⟨⟨by decide, by decide⟩, ?_, fun _ =>
      ⟨sampleToken, ⟨_, List.mem_singleton_self _, hmade⟩, rfl⟩⟩
    rintro created ⟨call, hcall, hmade'⟩ -
    rw [List.mem_singleton.mp hcall] at hmade'
    rw [Except.ok.inj (hmade'.symm.trans hmade)]
  · have hvalid : sampleAuth.validateToken sampleHmac .inverse 60999 sampleToken
        = .ok (.client ⟨7#128⟩) :=
      SharedSecretAuth.validateToken_eq_ok_iff.mpr
        ⟨by decide, rfl, parseIdentity_toString _ _⟩
    simp [ServedNode.after, ServedNode.step, ServedNode.receive, oneDiskServed, ServedNode.start,
      handleFrame, negotiateVersionWithAuth, negotiateVersion, hello, minProtocolVersion,
      currentProtocolVersion, SharedSecretAuth.provider, hvalid]

end Blockyard.Node
