/-
# Shared-secret tokens

`blockyard-common`, `auth.rs`: the tokens that peers authenticate with.  A token says who its
bearer is, when it was issued and when it expires, and is signed with the secret of the cluster.

What is signed is the identity's text and the two times, one after the other, with NO length in
between.  A token still cannot be read in two ways, and two halves make that so.

* The times are written in eight bytes each, at the end, so the text in front is what is left
  (`signedBytes_inj`).
* Printing an identity can be undone: `parse_identity` takes the printed text to the identity it
  came from (`parseIdentity_toString`).

HMAC-SHA256 is a parameter.  Its values have 256 bits, so it cannot be injective on all messages;
what is assumed of it is said of one token and the tokens that were created (`CollisionFree`,
`Unforged`).
-/
import Blockyard.Protocol.Server

namespace Blockyard.Protocol

/-! ## 1. Identities and their texts -/

/-- `Uuid::from_str`, the `uuid` crate's: it reads back what is printed. -/
structure UuidParser where
  parse : List Char → Except String (BitVec 128)
  parse_text : ∀ {k : IdKind} (u : Uid k), parse u.text.toList = .ok u.uuid

/-- There is one: the printed texts are read back, and no others. -/
noncomputable def UuidParser.inverse : UuidParser where
  parse s := @dite _ (∃ u : NodeId, u.text.toList = s) (Classical.dec _)
    (fun h => .ok h.choose.uuid) fun _ => .error "invalid"
  parse_text {k} u := by
    have htext : u.text = (⟨u.uuid⟩ : NodeId).text := by simp only [Uid.text]
    have h : ∃ v : NodeId, v.text.toList = u.text.toList := ⟨⟨u.uuid⟩, by rw [htext]⟩
    have hsame : h.choose = ⟨u.uuid⟩ :=
      Uid.text_injective (String.toList_injective (by rw [h.choose_spec, htext]))
    rw [dif_pos h, hsame]

def parseIdentity (uuid : UuidParser) (s : String) : Except Error PeerIdentity :=
  match s.toList.dropPrefix? "client:".toList with
  | some rest =>
    match uuid.parse rest with
    | .ok id => .ok (.client ⟨id⟩)
    | .error e => .error (.auth s!"invalid session id in token: {e}")
  | none =>
    match s.toList.dropPrefix? "node:".toList with
    | some rest =>
      match uuid.parse rest with
      | .ok id => .ok (.node ⟨id⟩)
      | .error e => .error (.auth s!"invalid node id in token: {e}")
    | none => .error (.auth s!"unrecognized identity format: {s}")

theorem dropPrefix?_append (l rest : List Char) : (l ++ rest).dropPrefix? l = some rest :=
  List.dropPrefix?_eq_some_iff.mpr ⟨l, rfl, beq_self_eq_true l⟩

/-- **An identity is read back from its text.** -/
theorem parseIdentity_toString (uuid : UuidParser) (identity : PeerIdentity) :
    parseIdentity uuid (toString identity) = .ok identity := by
  cases identity with
  | client sid =>
    have htext : (toString (PeerIdentity.client sid)).toList
        = "client:".toList ++ sid.text.toList := String.toList_append
    rw [parseIdentity, htext, dropPrefix?_append]
    dsimp only
    rw [uuid.parse_text]
  | node nid =>
    have htext : (toString (PeerIdentity.node nid)).toList
        = "node:".toList ++ nid.text.toList := String.toList_append
    have hclient : ("node:".toList ++ nid.text.toList).dropPrefix? "client:".toList = none := rfl
    rw [parseIdentity, htext, hclient, dropPrefix?_append]
    dsimp only
    rw [uuid.parse_text]

/-! ## 2. Tokens -/

def utf8Bytes (s : String) : Bytes := s.toUTF8.data.toList

/-- `to_le_bytes` of a `u64`. -/
def le64 (n : Nat) : Bytes := (List.range 8).map fun i => UInt8.ofNat (n / 256 ^ i)

def AuthToken.isExpired (token : AuthToken) (nowMs : Nat) : Bool := nowMs ≥ token.expiresAtMs

/-- `SharedSecretAuth`, which `new` only builds from a secret of eight bytes or more. -/
structure SharedSecretAuth where
  secret : Bytes
  long : 8 ≤ secret.length

namespace SharedSecretAuth

def new (secret : String) : Except Error SharedSecretAuth :=
  if h : (utf8Bytes secret).length < 8 then
    .error (.auth "shared secret must be at least 8 characters")
  else .ok ⟨utf8Bytes secret, Nat.not_lt.mp h⟩

/-- What is signed: the text and the times, one after the other. -/
def signedBytes (identity : String) (issuedAtMs expiresAtMs : Nat) : Bytes :=
  utf8Bytes identity ++ le64 issuedAtMs ++ le64 expiresAtMs

variable (hmac : Bytes → Bytes → BitVec 256) (uuid : UuidParser)
  (auth : SharedSecretAuth)

/-- `compute_signature`: the 64 hexadecimal digits of the HMAC, its first byte highest. -/
def computeSignature (identity : String) (issuedAtMs expiresAtMs : Nat) : String :=
  String.ofList
    (hexDigits 64 (hmac auth.secret (signedBytes identity issuedAtMs expiresAtMs)).toNat)

/-- `create_token`, at a time. -/
def createToken (nowMs : Nat) (identity : PeerIdentity) (ttlMs : Nat) : Except Error AuthToken :=
  let expires := saturatingAdd nowMs ttlMs
  let identityStr := toString identity
  .ok
    { identity := identityStr
      issuedAtMs := nowMs
      expiresAtMs := expires
      signature := auth.computeSignature hmac identityStr nowMs expires }

/-- `validate_token`, at a time. -/
def validateToken (nowMs : Nat) (token : AuthToken) : Except Error PeerIdentity :=
  if token.isExpired nowMs then
    .error (.auth s!"token expired at {token.expiresAtMs}, current time {nowMs}")
  else if token.signature
      ≠ auth.computeSignature hmac token.identity token.issuedAtMs token.expiresAtMs then
    .error (.auth "invalid token signature")
  else parseIdentity uuid token.identity

def provider : AuthProvider where
  validateToken nowMs token :=
    match auth.validateToken hmac uuid nowMs token with
    | .ok identity => .ok identity
    | .error e => .error (toString e)

end SharedSecretAuth

/-! ## 3. What a signature binds -/

/-- The times of a token are `u64`s. -/
def AuthToken.Fits (token : AuthToken) : Prop :=
  token.issuedAtMs < 2 ^ 64 ∧ token.expiresAtMs < 2 ^ 64

/-- A call of `create_token`, at a time the clock can show. -/
structure CreateCall where
  nowMs : Nat
  identity : PeerIdentity
  ttlMs : Nat
  fits : nowMs < 2 ^ 64

theorem utf8Bytes_injective : Function.Injective utf8Bytes := by
  intro s t h
  have hdata : s.toUTF8.data = t.toUTF8.data := Array.toList_inj.mp h
  exact String.toByteArray_inj.mp (ByteArray.ext hdata)

theorem length_le64 (n : Nat) : (le64 n).length = 8 := by simp [le64]

theorem le64_inj {n m : Nat} (hn : n < 2 ^ 64) (hm : m < 2 ^ 64) (h : le64 n = le64 m) : n = m := by
  have hbyte : ∀ i < 8, n / 256 ^ i % 256 = m / 256 ^ i % 256 := by
    intro i hi
    have heq := congrArg UInt8.toNat (List.map_inj_left.mp h i (List.mem_range.mpr hi))
    simpa only [UInt8.toNat_ofNat', Nat.reducePow] using heq
  have h0 := hbyte 0 (by decide)
  have h1 := hbyte 1 (by decide)
  have h2 := hbyte 2 (by decide)
  have h3 := hbyte 3 (by decide)
  have h4 := hbyte 4 (by decide)
  have h5 := hbyte 5 (by decide)
  have h6 := hbyte 6 (by decide)
  have h7 := hbyte 7 (by decide)
  norm_num at h0 h1 h2 h3 h4 h5 h6 h7
  omega

namespace SharedSecretAuth

/-- **What is signed can be read in one way only.** -/
theorem signedBytes_inj {identity identity' : String} {issued issued' expires expires' : Nat}
    (hissued : issued < 2 ^ 64) (hissued' : issued' < 2 ^ 64) (hexpires : expires < 2 ^ 64)
    (hexpires' : expires' < 2 ^ 64)
    (h : signedBytes identity issued expires = signedBytes identity' issued' expires') :
    identity = identity' ∧ issued = issued' ∧ expires = expires' := by
  -- the times are peeled off from the end, where each has its eight bytes
  obtain ⟨hfront, hlast⟩ := List.append_inj' h (by rw [length_le64, length_le64])
  obtain ⟨htext, hmiddle⟩ := List.append_inj' hfront (by rw [length_le64, length_le64])
  exact ⟨utf8Bytes_injective htext, le64_inj hissued hissued' hmiddle,
    le64_inj hexpires hexpires' hlast⟩

section Binding

variable {hmac : Bytes → Bytes → BitVec 256} {uuid : UuidParser}
  {auth : SharedSecretAuth}

theorem hmac_eq_of_computeSignature_eq {identity identity' : String}
    {issued issued' expires expires' : Nat}
    (h : auth.computeSignature hmac identity issued expires
      = auth.computeSignature hmac identity' issued' expires') :
    hmac auth.secret (signedBytes identity issued expires)
      = hmac auth.secret (signedBytes identity' issued' expires') := by
  have hmod := mod_eq_of_hexDigits_eq (String.ofList_injective h)
  have hpow : (16 : Nat) ^ 64 = 2 ^ 256 := by decide
  rw [hpow, Nat.mod_eq_of_lt (BitVec.isLt _), Nat.mod_eq_of_lt (BitVec.isLt _)] at hmod
  exact BitVec.eq_of_toNat_eq hmod

/-- **When a token is accepted**: it has not expired, it is signed, and its identity can be read. -/
theorem validateToken_eq_ok_iff {nowMs : Nat} {token : AuthToken} {identity : PeerIdentity} :
    auth.validateToken hmac uuid nowMs token = .ok identity ↔
      nowMs < token.expiresAtMs ∧
      token.signature
        = auth.computeSignature hmac token.identity token.issuedAtMs token.expiresAtMs ∧
      parseIdentity uuid token.identity = .ok identity := by
  unfold validateToken AuthToken.isExpired
  by_cases hexpired : nowMs ≥ token.expiresAtMs
  · simp [hexpired, Nat.not_lt.mpr hexpired]
  · by_cases hsigned : token.signature
        = auth.computeSignature hmac token.identity token.issuedAtMs token.expiresAtMs
    · simp [hexpired, hsigned, Nat.not_le.mp hexpired]
    · simp [hexpired, hsigned]

end Binding

section Assumptions

variable (hmac : Bytes → Bytes → BitVec 256) (auth : SharedSecretAuth) (calls : List CreateCall)
  (token : AuthToken)

def Created (created : AuthToken) : Prop :=
  ∃ call ∈ calls, auth.createToken hmac call.nowMs call.identity call.ttlMs = .ok created

/-- The HMAC of what the token says is that of no created token that says something else. -/
def CollisionFree : Prop :=
  ∀ created, Created hmac auth calls created →
    hmac auth.secret (signedBytes created.identity created.issuedAtMs created.expiresAtMs)
      = hmac auth.secret (signedBytes token.identity token.issuedAtMs token.expiresAtMs) →
    signedBytes created.identity created.issuedAtMs created.expiresAtMs
      = signedBytes token.identity token.issuedAtMs token.expiresAtMs

/-- The signature of the token matches only if it was produced by `create_token`. -/
def Unforged : Prop :=
  token.signature = auth.computeSignature hmac token.identity token.issuedAtMs token.expiresAtMs →
    ∃ created, Created hmac auth calls created ∧ created.signature = token.signature

end Assumptions

/-- **A token that is accepted says what some created token says**, and is accepted as the identity
that token was created for. -/
theorem created_of_validateToken {hmac : Bytes → Bytes → BitVec 256}
    {uuid : UuidParser} {auth : SharedSecretAuth} {calls : List CreateCall}
    {token : AuthToken} (hfits : token.Fits) (hfree : CollisionFree hmac auth calls token)
    (hunforged : Unforged hmac auth calls token) {t : Nat} {identity : PeerIdentity}
    (hvalid : auth.validateToken hmac uuid t token = .ok identity) :
    ∃ call ∈ calls, ∃ created,
      auth.createToken hmac call.nowMs call.identity call.ttlMs = .ok created ∧
      token.identity = created.identity ∧ token.issuedAtMs = created.issuedAtMs ∧
      token.expiresAtMs = created.expiresAtMs ∧ identity = call.identity := by
  obtain ⟨-, hsigned, hparse⟩ := validateToken_eq_ok_iff.mp hvalid
  obtain ⟨created, ⟨call, hcall, hcreated⟩, hsignature⟩ := hunforged hsigned
  have hmade := hcreated
  cases hcreated
  -- equal signatures, so equal HMACs, so equal bytes, so equal fields
  have hhmac := hmac_eq_of_computeSignature_eq (hsignature.trans hsigned)
  have hbytes := hfree _ ⟨call, hcall, hmade⟩ hhmac
  have hexpires : saturatingAdd call.nowMs call.ttlMs < 2 ^ 64 :=
    Nat.lt_of_le_of_lt (Nat.min_le_right _ _) (by decide)
  obtain ⟨htext, hissued, hexpiry⟩ := signedBytes_inj call.fits hfits.1 hexpires hfits.2 hbytes
  refine ⟨call, hcall, _, hmade, htext.symm, hissued.symm, hexpiry.symm, ?_⟩
  rw [← htext, parseIdentity_toString] at hparse
  exact (Except.ok.inj hparse).symm

/-- **TOKENS BIND IDENTITY AND LIFETIME.**  A created token is accepted, as its identity, exactly
until it expires; and a token that is accepted says what some created token says. -/
theorem tokens_bind (hmac : Bytes → Bytes → BitVec 256) (uuid : UuidParser)
    (auth : SharedSecretAuth) :
    (∀ (nowMs : Nat) (identity : PeerIdentity) (ttlMs : Nat), ∃ token,
      auth.createToken hmac nowMs identity ttlMs = .ok token ∧
      token.issuedAtMs = nowMs ∧ token.expiresAtMs = saturatingAdd nowMs ttlMs ∧
      ∀ t, (t < token.expiresAtMs → auth.validateToken hmac uuid t token = .ok identity) ∧
        (token.expiresAtMs ≤ t → ∃ e, auth.validateToken hmac uuid t token = .error e)) ∧
    ∀ (calls : List CreateCall) (token : AuthToken), token.Fits →
      CollisionFree hmac auth calls token → Unforged hmac auth calls token →
      ∀ t identity, auth.validateToken hmac uuid t token = .ok identity →
        ∃ call ∈ calls, ∃ created,
          auth.createToken hmac call.nowMs call.identity call.ttlMs = .ok created ∧
          token.identity = created.identity ∧ token.issuedAtMs = created.issuedAtMs ∧
          token.expiresAtMs = created.expiresAtMs ∧ identity = call.identity := by
  constructor
  · intro nowMs identity ttlMs
    refine ⟨_, rfl, rfl, rfl, fun t => ⟨fun hbefore => ?_, fun hafter => ?_⟩⟩
    · exact validateToken_eq_ok_iff.mpr ⟨hbefore, rfl, parseIdentity_toString uuid identity⟩
    · refine ⟨_, if_pos ?_⟩
      exact decide_eq_true hafter
  · intro calls token hfits hfree hunforged t identity hvalid
    exact created_of_validateToken hfits hfree hunforged hvalid

def sampleAuth : SharedSecretAuth := ⟨List.replicate 8 0, by decide⟩

def sampleCall : CreateCall := ⟨1000, .client ⟨7#128⟩, 60000, by decide⟩

/-- HMAC-SHA256 on what the call signs with that secret. -/
def sampleHmac (key message : Bytes) : BitVec 256 :=
  if key = List.replicate 8 0 ∧ message = signedBytes (toString sampleCall.identity) 1000 61000 then
    0x538b3ebe39928b3c5e6dab97ba8492c87313317023b7ddedf392deb935cae24c#256
  else 0#256

theorem tokens_bind_sample :
    ∃ token, sampleAuth.createToken sampleHmac 1000 (.client ⟨7#128⟩) 60000 = .ok token ∧
      sampleAuth.validateToken sampleHmac .inverse 60999 token = .ok (.client ⟨7#128⟩) ∧
      ∃ call ∈ [sampleCall], ∃ created,
        sampleAuth.createToken sampleHmac call.nowMs call.identity call.ttlMs = .ok created ∧
        token.identity = created.identity ∧ token.issuedAtMs = created.issuedAtMs ∧
        token.expiresAtMs = created.expiresAtMs ∧ PeerIdentity.client ⟨7#128⟩ = call.identity := by
  obtain ⟨haccepted, hcreated⟩ := tokens_bind sampleHmac .inverse sampleAuth
  obtain ⟨token, hmade, hissued, hexpires, hlife⟩ := haccepted 1000 (.client ⟨7#128⟩) 60000
  have hexpiry : token.expiresAtMs = 61000 := hexpires
  have hvalid := (hlife 60999).1 (by rw [hexpiry]; decide)
  refine ⟨token, hmade, hvalid, hcreated [sampleCall] token ⟨?_, ?_⟩ ?_ ?_ 60999 _ hvalid⟩
  · rw [hissued]
    decide
  · rw [hexpiry]
    decide
  · rintro created ⟨call, hcall, hmade'⟩ -
    rw [List.mem_singleton.mp hcall] at hmade'
    rw [Except.ok.inj (hmade'.symm.trans hmade)]
  · intro _
    exact ⟨token, ⟨sampleCall, List.mem_singleton_self _, hmade⟩, rfl⟩

/-- **Whose token a provider accepts**: the one it was created for, while it has not expired. -/
theorem created_of_provider {hmac : Bytes → Bytes → BitVec 256} {uuid : UuidParser}
    {auth : SharedSecretAuth} {calls : List CreateCall} {nowMs : Nat} {token : AuthToken}
    {peer : PeerIdentity} (hfits : token.Fits) (hfree : CollisionFree hmac auth calls token)
    (hunforged : Unforged hmac auth calls token)
    (h : (auth.provider hmac uuid).validateToken nowMs token = .ok peer) :
    nowMs < token.expiresAtMs ∧ auth.validateToken hmac uuid nowMs token = .ok peer ∧
      ∃ call ∈ calls, call.identity = peer ∧
        auth.createToken hmac call.nowMs call.identity call.ttlMs = .ok token := by
  have hvalid : auth.validateToken hmac uuid nowMs token = .ok peer := by
    unfold provider at h
    dsimp only at h
    split at h
    · next identity hok => rw [hok, Except.ok.inj h]
    · cases h
  obtain ⟨call, hcall, created, hcreated, hidentity, hissued, hexpires, rfl⟩ :=
    created_of_validateToken hfits hfree hunforged hvalid
  obtain ⟨hlive, hsigned, -⟩ := validateToken_eq_ok_iff.mp hvalid
  refine ⟨hlive, hvalid, call, hcall, rfl, ?_⟩
  -- the signature is computed from the other fields
  have hsame : token = created := by
    cases hcreated
    cases token
    simp_all
  rw [hsame, hcreated]

end SharedSecretAuth

end Blockyard.Protocol
