/-
# Which failures the client takes for a stale epoch

`blockyard-ublk`, `tcp_client.rs` (`convert_write_response`): a data node answers a write it does
not perform with a TEXT, and the client reads the kind of the failure off it: a text with `stale`
or `epoch` in it is a stale epoch, upon which the write is tried again with fresh metadata.

The node says so when the epoch of the request is behind its own.  It also says `stale` when the
LEASE of the request is behind, which no refresh of the metadata repairs, and it repeats texts it
does not make: the checksum the client sent, the paths of its disks, what the operating system
calls an error.  `staleEpoch_exact_iff` is the exact condition; the proof goes through every way
`handle_write` can end (`WriteEnds`) and through every text it can answer with.
-/
import Blockyard.Lib.TextSearch
import Blockyard.Ublk.Cluster

open Std CrashFs TextSearch

namespace Blockyard.Ublk

open Storage DataNodeService

/-! ## 1. Words in texts -/

/-- The text has one of the words the client looks for first. -/
def Mentions (text : String) : Bool := containsText text "stale" || containsText text "epoch"

theorem containsText_eq_true_iff (text pattern : String) :
    containsText text pattern = true ↔ pattern.toList <:+: text.toList := by
  rw [containsText, List.any_eq_true, List.infix_iff_prefix_suffix]
  simp only [List.mem_tails, List.isPrefixOf_iff_prefix]
  exact ⟨fun ⟨t, hs, hp⟩ => ⟨t, hp, hs⟩, fun ⟨t, hp, hs⟩ => ⟨t, hs, hp⟩⟩

theorem mentions_iff (text : String) :
    Mentions text = true ↔
      "stale".toList <:+: text.toList ∨ "epoch".toList <:+: text.toList := by
  rw [Mentions, Bool.or_eq_true, containsText_eq_true_iff, containsText_eq_true_iff]

/-- A character that is in neither word. -/
def Separates (c : Char) : Bool := c ∉ "stale".toList ∧ c ∉ "epoch".toList

/-- A text without the words that ends in a separating character. -/
def Leads (a : String) : Bool := !Mentions a && a.toList.getLast?.any Separates

/-- A text without the words that begins with a separating character. -/
def Trails (b : String) : Bool := !Mentions b && b.toList.head?.any Separates

theorem mentions_append {a b : String} {c : Char}
    (h : a.toList.getLast? = some c ∨ b.toList.head? = some c) (hc : Separates c = true) :
    Mentions (a ++ b) = (Mentions a || Mentions b) := by
  have hout : c ∉ "stale".toList ∧ c ∉ "epoch".toList := of_decide_eq_true hc
  have hparted : ∀ p : List Char, c ∉ p → Parted p a.toList b.toList := fun p hp =>
    h.imp (fun ha => ⟨c, ha, hp⟩) fun hb => ⟨c, hb, hp⟩
  rw [Bool.eq_iff_iff, Bool.or_eq_true, mentions_iff, mentions_iff, mentions_iff,
    String.toList_append, infix_append_iff (hparted _ hout.1), infix_append_iff (hparted _ hout.2)]
  exact or_or_or_comm

theorem mentions_leads {a : String} (b : String) (ha : Leads a = true) :
    Mentions (a ++ b) = Mentions b := by
  simp only [Leads, Bool.and_eq_true, Bool.not_eq_true', Option.any_eq_true] at ha
  obtain ⟨hquiet, c, hlast, hc⟩ := ha
  rw [mentions_append (Or.inl hlast) hc, hquiet, Bool.false_or]

theorem mentions_trails (a : String) {b : String} (hb : Trails b = true) :
    Mentions (a ++ b) = Mentions a := by
  simp only [Trails, Bool.and_eq_true, Bool.not_eq_true', Option.any_eq_true] at hb
  obtain ⟨hquiet, c, hhead, hc⟩ := hb
  rw [mentions_append (Or.inr hhead) hc, hquiet, Bool.or_false]

/-- Between two texts that are kept apart. -/
theorem mentions_between (a : String) {m : String} (b : String) (hm : Trails m = true)
    (hm' : Leads m = true) : Mentions (a ++ m ++ b) = (Mentions a || Mentions b) := by
  have htrails := hm
  simp only [Trails, Bool.and_eq_true, Bool.not_eq_true', Option.any_eq_true] at htrails
  obtain ⟨-, c, hhead, hc⟩ := htrails
  have hhead' : (m ++ b).toList.head? = some c := by
    rw [String.toList_append, List.head?_append, hhead]
    rfl
  rw [String.append_assoc, mentions_append (Or.inr hhead') hc, mentions_leads b hm']

theorem mentions_append_of_mentions {a : String} (b : String) (ha : Mentions a = true) :
    Mentions (a ++ b) = true := by
  rw [mentions_iff] at ha ⊢
  rw [String.toList_append]
  exact ha.imp (fun h => h.trans (List.prefix_append _ _).isInfix)
    fun h => h.trans (List.prefix_append _ _).isInfix

/-! ## 2. The texts the node makes itself -/

theorem mentions_of_hex {text : String}
    (h : ∀ c ∈ text.toList, c = '-' ∨ ∃ n < 16, c = hexDigit n) : Mentions text = false := by
  have hs : 's' ∉ text.toList := fun hmem => by
    rcases h _ hmem with heq | ⟨n, hn, heq⟩
    · exact absurd heq (by decide)
    · exact absurd heq (by interval_cases n <;> decide)
  have hp : 'p' ∉ text.toList := fun hmem => by
    rcases h _ hmem with heq | ⟨n, hn, heq⟩
    · exact absurd heq (by decide)
    · exact absurd heq (by interval_cases n <;> decide)
  rw [Bool.eq_false_iff, ne_eq, mentions_iff, not_or]
  exact ⟨not_infix_of_not_mem (by decide) hs, not_infix_of_not_mem (by decide) hp⟩

theorem exists_of_mem_hexDigits {width n : Nat} {c : Char} (h : c ∈ hexDigits width n) :
    ∃ k < 16, c = hexDigit k := by
  obtain ⟨i, -, rfl⟩ := List.mem_map.mp h
  exact ⟨_, Nat.mod_lt _ (by decide), rfl⟩

@[simp] theorem mentions_uid {k : IdKind} (u : Uid k) : Mentions (toString u) = false := by
  refine mentions_of_hex fun c hc => ?_
  have htext : (toString u).toList = (Uid.text u).toList := rfl
  rw [htext, Uid.text, String.toList_ofList] at hc
  simp only [List.mem_append, List.mem_cons] at hc
  rcases hc with (((h | h | h) | h | h) | h | h) | h | h
  all_goals first
    | exact Or.inl h
    | exact Or.inr (exists_of_mem_hexDigits (List.mem_of_mem_take h))
    | exact Or.inr (exists_of_mem_hexDigits (List.mem_of_mem_drop (List.mem_of_mem_take h)))
    | exact Or.inr (exists_of_mem_hexDigits (List.mem_of_mem_drop h))

@[simp] theorem mentions_checksum (x : Externals) (data : Bytes) :
    Mentions (x.checksum data) = false := by
  refine mentions_of_hex fun c hc => Or.inr ?_
  rw [Externals.checksum, computeChecksum, String.toList_ofList] at hc
  exact exists_of_mem_hexDigits hc

theorem mentions_denied (caller : PeerIdentity) (volumeId : VolumeId) :
    Mentions s!"write denied: {caller} not authorized for volume {volumeId}" = false := by
  have hcaller : Mentions (toString caller) = false := by
    cases caller with
    | client sid => exact (mentions_leads (a := "client:") _ (by decide)).trans (mentions_uid sid)
    | node nid => exact (mentions_leads (a := "node:") _ (by decide)).trans (mentions_uid nid)
  have htext := mentions_between ("write denied: " ++ toString caller)
    (m := " not authorized for volume ") (toString volumeId) (by decide) (by decide)
  rw [mentions_leads (a := "write denied: ") _ (by decide), hcaller, mentions_uid] at htext
  exact htext

/-- The disk that is refused is named, and nothing else. -/
theorem mentions_selectWriteDisk {order : IterOrder DiskId} {inv : DiskInventory}
    {target : Option DiskId} {e : StorageError} (h : selectWriteDisk order inv target = .error e) :
    Mentions (toString e) = false := by
  have hnamed : ∀ (d : DiskId) (a b : String), Leads a = true → Trails b = true →
      Mentions (toString (StorageError.allocationDenied (a ++ toString d ++ b))) = false := by
    intro d a b ha hb
    refine (mentions_leads (a := "allocation denied: ") _ (by decide)).trans ?_
    refine (mentions_trails (a ++ toString d) hb).trans ?_
    rw [mentions_leads _ ha, mentions_uid]
  unfold selectWriteDisk at h
  split at h
  · next d =>
    split at h
    · next e' he' =>
      cases h
      unfold DiskInventory.allowsAllocation at he'
      split at he'
      · cases he'
        refine (mentions_leads (a := "disk not found: ") _ (by decide)).trans ?_
        refine (mentions_leads (a := "unknown disk: ") _ (by decide)).trans ?_
        exact mentions_uid d
      · cases he'
    · split at h
      · cases h
        exact hnamed d "preferred disk " " has quarantined bad regions" (by decide) (by decide)
      · cases h
    · cases h
      exact hnamed d "preferred disk " " does not allow allocation" (by decide) (by decide)
  · split at h
    · cases h
    · cases h
    · cases h
      decide

/-- The lease of the request is behind the one the node knows. -/
def StaleLease (s : DataNodeService) (request : WriteExtentRequest) : Prop :=
  ∃ cached version, s.leaseCache[request.volumeId]? = some cached ∧
    request.leaseVersion = some version ∧ request.sessionId = cached.sessionId ∧
    version < cached.leaseVersion

theorem mentions_noLease (volumeId : VolumeId) :
    Mentions s!"volume {volumeId} requires lease, but write has no lease_version" = false := by
  refine (mentions_trails ("volume " ++ toString volumeId)
    (b := " requires lease, but write has no lease_version") (by decide)).trans ?_
  rw [mentions_leads (a := "volume ") _ (by decide), mentions_uid]

theorem mentions_leaseHeld (volumeId : VolumeId) (holder sessionId : SessionId) :
    Mentions (s!"lease for volume {volumeId} held by session {holder}, "
      ++ s!"write from {sessionId}") = false := by
  refine (mentions_between ("lease for volume " ++ toString volumeId ++ " held by session "
    ++ toString holder) (m := ", ") ("write from " ++ toString sessionId) (by decide)
    (by decide)).trans ?_
  rw [mentions_leads (a := "write from ") _ (by decide), mentions_uid, Bool.or_false,
    mentions_between _ _ (by decide) (by decide), mentions_uid, Bool.or_false,
    mentions_leads (a := "lease for volume ") _ (by decide), mentions_uid]

theorem mentions_staleLease (volumeId : VolumeId) (version current : LeaseVersion) :
    Mentions (s!"stale lease version for volume {volumeId}: "
      ++ s!"request has {version}, current is {current}") = true :=
  mentions_append_of_mentions _ (mentions_append_of_mentions _ (mentions_append_of_mentions
    (a := "stale lease version for volume ") _ (by decide)))

/-- **A lease that is refused** reads like a stale epoch when it is a stale lease. -/
theorem mentions_validateWriteLease {s : DataNodeService} {request : WriteExtentRequest}
    {msg : String} (h : s.validateWriteLease request = .error msg) :
    Mentions msg = true ↔ StaleLease s request := by
  unfold validateWriteLease at h
  unfold StaleLease
  split at h
  · cases h
  next cached hcached =>
  split at h
  · next hversion =>
    cases h
    simp [mentions_noLease, hversion]
  next version hversion =>
  split at h
  · next hsession =>
    cases h
    simp [mentions_leaseHeld, hcached, hsession]
  next hsession =>
  split at h
  · next hlt =>
    cases h
    exact iff_of_true (mentions_staleLease _ _ _)
      ⟨cached, version, hcached, hversion, not_not.mp hsession, hlt⟩
  · cases h

theorem mentions_staleEpoch (epoch current : EpochId) :
    Mentions s!"stale epoch: request epoch {epoch} < current {current}" = true :=
  mentions_append_of_mentions _ (mentions_append_of_mentions _ (mentions_append_of_mentions
    (a := "stale epoch: request epoch ") _ (by decide)))

/-- The checksum the client sent is repeated to it. -/
theorem mentions_mismatch (x : Externals) (sent : String) (payload : Bytes) :
    Mentions (s!"payload checksum mismatch: expected {sent}, " ++ s!"got {x.checksum payload}")
      = Mentions sent := by
  refine (mentions_between ("payload checksum mismatch: expected " ++ sent) (m := ", ")
    ("got " ++ x.checksum payload) (by decide) (by decide)).trans ?_
  rw [mentions_leads (a := "got ") _ (by decide), mentions_checksum, Bool.or_false,
    mentions_leads (a := "payload checksum mismatch: expected ") _ (by decide)]

theorem mentions_noStore (d : DiskId) : Mentions s!"no extent store for disk {d}" = false :=
  (mentions_leads (a := "no extent store for disk ") _ (by decide)).trans (mentions_uid d)

theorem mentions_stagingFailed (e : StorageError) :
    Mentions s!"staging failed: {e}" = Mentions (toString e) :=
  mentions_leads (a := "staging failed: ") _ (by decide)

theorem mentions_commitFailed (e : StorageError) :
    Mentions s!"commit failed: {e}" = Mentions (toString e) :=
  mentions_leads (a := "commit failed: ") _ (by decide)

/-! ## 3. What the client makes of an answer -/

/-- The acknowledgement carries `StaleEpoch`. -/
def TakesForStale (nodeId : NodeId) (resp : WriteExtentResponse) : Prop :=
  (convertWriteResponse nodeId resp).error = some .staleEpoch

theorem takesForStale_iff (nodeId : NodeId) (resp : WriteExtentResponse) :
    TakesForStale nodeId resp ↔ resp.success = false ∧ Mentions (resp.error.getD "") = true := by
  unfold TakesForStale convertWriteResponse Mentions
  dsimp only
  cases resp.success with
  | true => simp
  | false =>
    simp only [Bool.false_eq_true, if_false]
    split
    · next h => simp [h]
    · next h =>
      split
      · simp [h]
      · split <;> simp [h]

section Answer

variable (nodeId : NodeId) (x : Externals) (env : WriteEnv) (s : DataNodeService)
  (request : WriteExtentRequest) (payload : Bytes) (caller : PeerIdentity)

theorem takesForStale_writeError (msg : String) :
    TakesForStale nodeId (s.writeError env request msg).2 ↔ Mentions msg = true := by
  rw [takesForStale_iff]
  simp [writeError]

/-- The node rejects the request because its epoch is below the node's. -/
structure EpochRejected : Prop where
  acl : s.volumeAcl.checkWrite request.volumeId caller = true
  new : s.checkDuplicate request.operationId = none
  epoch : request.epoch < s.currentEpoch

/-- A performed write fails with a text that mentions a stale epoch: one of the operating system
or of the paths, none of the node's own. -/
def IoMentions (d : DiskId) : Prop :=
  ∃ store, s.stores[d]? = some store ∧
    match store.stageExtent x env.stageFault request.extentId request.extentVersion payload with
    | (_, .error e) => Mentions (toString e) = true
    | (staged, .ok (_, checksum)) =>
      ∃ e, (staged.commitExtent x env.commitFault env.committedAt request.extentId
        request.extentVersion checksum payload.length .default).2 = .error e ∧
        Mentions (toString e) = true

/-- **What reads like a stale epoch and is none**: a stale lease, a checksum of the client's that
has one of the words in it, or such a text of the operating system's. -/
def Misleads : Prop :=
  s.volumeAcl.checkWrite request.volumeId caller = true ∧
    s.checkDuplicate request.operationId = none ∧ s.currentEpoch ≤ request.epoch ∧
    (StaleLease s request ∨
      s.validateWriteLease request = .ok () ∧
        ∃ d, selectWriteDisk env.diskOrder s.inventory request.targetDiskId = .ok d ∧
          (request.checksum ≠ x.checksum payload ∧ Mentions request.checksum = true ∨
            request.checksum = x.checksum payload ∧ IoMentions x env s request payload d))

theorem takesForStale_performWrite (d : DiskId) :
    TakesForStale nodeId (s.performWrite x env request payload d).2 ↔
      IoMentions x env s request payload d := by
  unfold performWrite IoMentions
  cases hstore : s.stores[d]? with
  | none => simp [takesForStale_writeError, mentions_noStore]
  | some store =>
    rcases hstage : store.stageExtent x env.stageFault request.extentId request.extentVersion
      payload with ⟨staged, e | ⟨path, checksum⟩⟩
    · simp [hstage, takesForStale_writeError, mentions_stagingFailed]
    · rcases hcommit : staged.commitExtent x env.commitFault env.committedAt request.extentId
        request.extentVersion checksum payload.length .default with ⟨store', e | entry⟩
      · simp [hstage, hcommit, takesForStale_writeError, mentions_commitFailed]
      · simp [hstage, hcommit, takesForStale_iff]

/-- The same for a write that is behind neither in its epoch nor in its lease: its checksum is
compared and it is performed on the disk that is chosen. -/
theorem takesForStale_chosen (hacl : s.volumeAcl.checkWrite request.volumeId caller = true)
    (hnew : s.checkDuplicate request.operationId = none) (hepoch : s.currentEpoch ≤ request.epoch)
    (hlease : s.validateWriteLease request = .ok ()) :
    TakesForStale nodeId (s.handleWrite x env request payload caller).2 ↔
      ∃ d, selectWriteDisk env.diskOrder s.inventory request.targetDiskId = .ok d ∧
        (request.checksum ≠ x.checksum payload ∧ Mentions request.checksum = true ∨
          request.checksum = x.checksum payload ∧ IoMentions x env s request payload d) := by
  unfold DataNodeService.handleWrite
  rw [if_neg (by simp [hacl])]
  simp only [hnew, (validateEpoch_eq_ok_iff s _).mpr hepoch, hlease]
  cases hd : selectWriteDisk env.diskOrder s.inventory request.targetDiskId with
  | error e =>
    dsimp only
    rw [takesForStale_writeError, mentions_selectWriteDisk hd]
    simp
  | ok d =>
    by_cases hsum : request.checksum = x.checksum payload
    · simp [hsum, takesForStale_performWrite]
    · simp [hsum, takesForStale_writeError, mentions_mismatch]

/-- The gates before that: an epoch that is behind is rejected with a text that says so, a lease
that is not accepted with one that may. -/
theorem takesForStale_behind (hacl : s.volumeAcl.checkWrite request.volumeId caller = true)
    (hnew : s.checkDuplicate request.operationId = none)
    (hbehind : request.epoch < s.currentEpoch ∨
      ∃ msg, s.validateWriteLease request = .error msg) :
    TakesForStale nodeId (s.handleWrite x env request payload caller).2 ↔
      request.epoch < s.currentEpoch ∨ StaleLease s request := by
  unfold DataNodeService.handleWrite
  rw [if_neg (by simp [hacl])]
  simp only [hnew]
  by_cases hepoch : request.epoch < s.currentEpoch
  · rw [validateEpoch, if_pos hepoch]
    dsimp only
    rw [takesForStale_writeError]
    exact iff_of_true (mentions_staleEpoch _ _) (Or.inl hepoch)
  · obtain ⟨msg, hlease⟩ := hbehind.resolve_left hepoch
    simp only [(validateEpoch_eq_ok_iff s _).mpr (Nat.not_lt.mp hepoch), hlease]
    rw [takesForStale_writeError, mentions_validateWriteLease hlease]
    simp [hepoch]

/-- **What is taken for a stale epoch**: an epoch that is rejected, and what misleads. -/
theorem takesForStale_handleWrite :
    TakesForStale nodeId (s.handleWrite x env request payload caller).2 ↔
      EpochRejected s request caller ∨ Misleads x env s request payload caller := by
  cases hacl : s.volumeAcl.checkWrite request.volumeId caller with
  | false =>
    rw [handleWrite_of_denied hacl, takesForStale_writeError, mentions_denied]
    refine iff_of_false (by decide) ?_
    rintro (hrej | hmis)
    · exact absurd hrej.acl (by simp [hacl])
    · exact absurd hmis.1 (by simp [hacl])
  | true =>
    cases hnew : s.checkDuplicate request.operationId with
    | some record =>
      rw [handleWrite_of_duplicate hacl hnew, takesForStale_iff]
      have hquiet : Mentions "previous attempt failed" = false := by decide
      refine iff_of_false ?_ ?_
      · cases hsuccess : record.success <;> simp [duplicateResponse, hsuccess, hquiet]
      · rintro (hrej | hmis)
        · exact absurd hrej.new (by simp [hnew])
        · exact absurd hmis.2.1 (by simp [hnew])
    | none =>
      have hrej : EpochRejected s request caller ↔ request.epoch < s.currentEpoch :=
        ⟨fun h => h.epoch, fun h => ⟨hacl, hnew, h⟩⟩
      have hlate : request.epoch < s.currentEpoch ↔ ¬ s.currentEpoch ≤ request.epoch :=
        Nat.not_le.symm
      rw [hrej]
      unfold Misleads
      rcases hlease : s.validateWriteLease request with msg | ⟨⟨⟩⟩
      · rw [takesForStale_behind nodeId x env s request payload caller hacl hnew
          (Or.inr ⟨msg, hlease⟩), hlate]
        simp only [hacl, hnew, reduceCtorEq, false_and, or_false, true_and]
        tauto
      · by_cases hepoch : s.currentEpoch ≤ request.epoch
        · have hfresh : ¬ StaleLease s request := by
            rintro ⟨cached, version, hcached, hversion, -, hlt⟩
            obtain ⟨-, v, hv, hle⟩ := (validateWriteLease_eq_ok_iff s request).mp hlease cached
              hcached
            rw [hversion] at hv
            cases hv
            exact absurd hlt (Nat.not_lt.mpr hle)
          rw [takesForStale_chosen nodeId x env s request payload caller hacl hnew hepoch hlease]
          simp [hacl, hnew, hepoch, hfresh]
        · rw [takesForStale_behind nodeId x env s request payload caller hacl hnew
            (Or.inl (hlate.mpr hepoch))]
          simp [hlate, hepoch]

end Answer

/-- **Stale-epoch rejections are recognised exactly** when nothing misleads. -/
theorem staleEpoch_exact_iff (nodeId : NodeId) (x : Externals) (env : WriteEnv)
    (s : DataNodeService) (request : WriteExtentRequest) (payload : Bytes)
    (caller : PeerIdentity) :
    ((convertWriteResponse nodeId (s.handleWrite x env request payload caller).2).error
        = some .staleEpoch ↔ EpochRejected s request caller) ↔
      ¬ Misleads x env s request payload caller := by
  have h := takesForStale_handleWrite nodeId x env s request payload caller
  unfold TakesForStale at h
  rw [h]
  -- an epoch that is rejected and one that is not do not go together
  have hone : EpochRejected s request caller → ¬ Misleads x env s request payload caller :=
    fun hrej hmis => absurd hrej.epoch (Nat.not_lt.mpr hmis.2.2.1)
  tauto

/-- A node at epoch 1 that knows lease 5 of session 1 for volume 7. -/
def leasedNode : DataNodeService := sampleNode.updateLease ⟨7#128⟩ ⟨1#128⟩ 5

def behindLease : WriteExtentRequest := { sampleWrite ⟨21#128⟩ 1 with leaseVersion := some 3 }

/-- **A stale lease reads like a stale epoch**: the epoch of the request is the node's, and the
acknowledgement carries `StaleEpoch`. -/
theorem staleLease_taken_for_staleEpoch :
    (convertWriteResponse ⟨2#128⟩ (leasedNode.handleWrite (jsonExternals sampleBlake3) calmEnv
        behindLease [1] (.node ⟨2#128⟩)).2).error = some .staleEpoch ∧
      behindLease.epoch = leasedNode.currentEpoch ∧
      ¬ EpochRejected leasedNode behindLease (.node ⟨2#128⟩) := by
  refine ⟨?_, rfl, fun h => absurd h.epoch (by decide)⟩
  refine (takesForStale_handleWrite ⟨2#128⟩ _ calmEnv leasedNode behindLease [1]
    (.node ⟨2#128⟩)).mpr (Or.inr ⟨rfl, by decide, Nat.le_refl 1, Or.inl ?_⟩)
  exact ⟨⟨⟨1#128⟩, 5⟩, 3, by decide, rfl, rfl, by decide⟩

end Blockyard.Ublk
