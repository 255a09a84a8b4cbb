/-
# The printed metadata

`Externals` assumes two things of `serde_json`: what was printed parses back, and a text that
was cut off does not parse.  This module prints `ExtentMeta` the way
`serde_json::to_string_pretty` does and shows that the assumptions fit that format:
`metaJson_prefixFree` says that no printed record is a prefix of another one's text, so a parser
that accepts exactly the printed texts has both properties.  `jsonExternals` is that parser,
over any digest function.

The argument is about fixed layouts (`layout`): literal text, a field, a delimiter that does
not occur in the field, more literal text, and so on.
-/
import Blockyard.Storage.Extent

namespace Blockyard.Storage

/-! ## 1. Layouts -/

section Layout

variable {α : Type}

/-- A text with holes: each piece of the shape is literal text, then a field, then a
delimiter; `final` is the text after the last delimiter. -/
def layout (final : List α) : List (List α × α) → List (List α) → List α
  | (lit, d) :: shape, f :: fields => lit ++ (f ++ d :: layout final shape fields)
  | _, _ => final

/-- A delimiter that occurs in neither field pins the field. -/
theorem prefix_peel {d : α} {a a' r r' : List α} (ha : d ∉ a) (ha' : d ∉ a')
    (h : a ++ d :: r <+: a' ++ d :: r') : a = a' ∧ r <+: r' := by
  induction a generalizing a' with
  | nil =>
    cases a' with
    | nil => exact ⟨rfl, (List.cons_prefix_cons.mp h).2⟩
    | cons b a' =>
      have hb : d = b := (List.cons_prefix_cons.mp h).1
      exact absurd (hb ▸ List.mem_cons_self) ha'
  | cons c a ih =>
    cases a' with
    | nil =>
      have hc : c = d := (List.cons_prefix_cons.mp h).1
      exact absurd (hc ▸ List.mem_cons_self) ha
    | cons b a' =>
      obtain ⟨rfl, htail⟩ := List.cons_prefix_cons.mp h
      obtain ⟨rfl, hr⟩ := ih (fun hd => ha (List.mem_cons_of_mem _ hd))
        (fun hd => ha' (List.mem_cons_of_mem _ hd)) htail
      exact ⟨rfl, hr⟩

/-- **A layout is prefix-free**: a text of the shape that is a prefix of another one has the
same fields. -/
theorem layout_prefixFree {final : List α} {shape : List (List α × α)} {fs fs' : List (List α)}
    (hlen : fs.length = shape.length) (hlen' : fs'.length = shape.length)
    (hf : List.Forall₂ (fun f (p : List α × α) => p.2 ∉ f) fs shape)
    (hf' : List.Forall₂ (fun f (p : List α × α) => p.2 ∉ f) fs' shape)
    (h : layout final shape fs <+: layout final shape fs') : fs = fs' := by
  induction shape generalizing fs fs' with
  | nil => rw [List.length_eq_zero_iff.mp hlen, List.length_eq_zero_iff.mp hlen']
  | cons p shape ih =>
    obtain ⟨lit, d⟩ := p
    cases hf with
    | cons hd hrest =>
      cases hf' with
      | cons hd' hrest' =>
        simp only [layout, List.prefix_append_right_inj] at h
        obtain ⟨rfl, htail⟩ := prefix_peel hd hd' h
        rw [ih (Nat.succ.inj hlen) (Nat.succ.inj hlen') hrest hrest' htail]

end Layout

/-! ## 2. Fields -/

def asciiBytes (s : List Char) : Bytes := s.map fun c => UInt8.ofNat c.toNat

/-- The characters of a field: letters, digits and hyphens. -/
def FieldText (s : List Char) : Prop := ∀ c ∈ s, c.isAlphanum = true ∨ c = '-'

theorem field_range {c : Char} (h : c.isAlphanum = true ∨ c = '-') :
    45 ≤ c.toNat ∧ c.toNat < 123 := by
  rcases h with h | rfl
  · simp only [Char.isAlphanum, Char.isAlpha, Char.isUpper, Char.isLower, Char.isDigit,
      Bool.or_eq_true, Bool.and_eq_true, decide_eq_true_eq, ge_iff_le,
      UInt32.le_iff_toNat_le] at h
    have hn : c.toNat = c.val.toNat := rfl
    rw [hn]
    rcases h with (⟨h1, h2⟩ | ⟨h1, h2⟩) | ⟨h1, h2⟩ <;>
      simp at h1 h2 <;> omega
  · decide

theorem field_char {c : Char} (h : c.isAlphanum = true ∨ c = '-') :
    c.toNat < 128 ∧ c.toNat ≠ 34 ∧ c.toNat ≠ 44 ∧ c.toNat ≠ 10 := by
  have hrange := field_range h
  omega

theorem asciiBytes_inj {s s' : List Char} (h : FieldText s) (h' : FieldText s')
    (heq : asciiBytes s = asciiBytes s') : s = s' := by
  have hback : ∀ {t : List Char}, FieldText t →
      (asciiBytes t).map (fun b => Char.ofNat b.toNat) = t := by
    intro t ht
    rw [asciiBytes, List.map_map]
    conv_rhs => rw [← List.map_id t]
    refine List.map_congr_left fun c hc => ?_
    have hlt := (field_char (ht c hc)).1
    simp only [Function.comp_apply, UInt8.toNat_ofNat', id_eq]
    rw [Nat.mod_eq_of_lt (by omega), Char.ofNat_toNat]
  rw [← hback h, ← hback h', heq]

theorem map_asciiBytes_inj {l l' : List (List Char)} (h : ∀ f ∈ l, FieldText f)
    (h' : ∀ f ∈ l', FieldText f) (heq : l.map asciiBytes = l'.map asciiBytes) : l = l' := by
  induction l generalizing l' with
  | nil => exact (List.map_eq_nil_iff.mp heq.symm).symm
  | cons f l ih =>
    obtain ⟨f', l'', rfl, hf, hl⟩ := List.map_eq_cons_iff.mp heq.symm
    rw [asciiBytes_inj (h f List.mem_cons_self) (h' f' List.mem_cons_self) hf.symm,
      ih (fun g hg => h g (List.mem_cons_of_mem _ hg))
        (fun g hg => h' g (List.mem_cons_of_mem _ hg)) hl.symm]

theorem delimiter_not_mem {s : List Char} (h : FieldText s) {d : UInt8}
    (hd : d = 34 ∨ d = 44 ∨ d = 10) : d ∉ asciiBytes s := by
  intro hmem
  obtain ⟨c, hc, hcd⟩ := List.mem_map.mp hmem
  obtain ⟨hlt, h34, h44, h10⟩ := field_char (h c hc)
  have hnat : c.toNat = d.toNat := by
    rw [← hcd, UInt8.toNat_ofNat', Nat.mod_eq_of_lt (by omega)]
  rcases hd with rfl | rfl | rfl
  · exact h34 hnat
  · exact h44 hnat
  · exact h10 hnat

/-! ## 3. The fields of the metadata -/

theorem fieldText_uid {k : IdKind} (u : Uid k) : FieldText u.text.toList := by
  intro c hc
  have htext : u.text.toList = _ := String.toList_ofList
  rw [htext] at hc
  have hsub : ∀ {n m : Nat}, c ∈ ((hexDigits 32 u.uuid.toNat).drop n).take m →
      c.isAlphanum = true := fun h =>
    isAlphanum_of_mem_hexDigits (List.mem_of_mem_drop (List.mem_of_mem_take h))
  simp only [List.mem_append, List.mem_cons] at hc
  rcases hc with (((h | h | h) | h | h) | h | h) | h | h
  · exact Or.inl (isAlphanum_of_mem_hexDigits (List.mem_of_mem_take h))
  · exact Or.inr h
  · exact Or.inl (hsub h)
  · exact Or.inr h
  · exact Or.inl (hsub h)
  · exact Or.inr h
  · exact Or.inl (hsub h)
  · exact Or.inr h
  · exact Or.inl (isAlphanum_of_mem_hexDigits (List.mem_of_mem_drop h))

theorem fieldText_nat (n : Nat) : FieldText n.repr.toList := by
  intro c hc
  rw [Nat.repr_eq_ofList_toDigits, String.toList_ofList] at hc
  have hdigit := Nat.isDigit_of_mem_toDigits (by decide) (by decide) hc
  exact Or.inl (by simp [Char.isAlphanum, hdigit])

def StorageClass.name : StorageClass → List Char
  | .default => ['D', 'e', 'f', 'a', 'u', 'l', 't']
  | .highPerformance => ['H', 'i', 'g', 'h', 'P', 'e', 'r', 'f', 'o', 'r', 'm', 'a', 'n', 'c', 'e']
  | .archive => ['A', 'r', 'c', 'h', 'i', 'v', 'e']

theorem fieldText_class (c : StorageClass) : FieldText c.name := by
  cases c <;> simp [FieldText, StorageClass.name]

theorem StorageClass.name_injective : Function.Injective StorageClass.name := by
  intro a b h
  cases a <;> cases b <;> first | rfl | exact absurd h (by decide)

def metaFields (m : ExtentMeta) : List (List Char) :=
  [m.extentId.text.toList, m.diskId.text.toList, m.version.repr.toList, m.checksum.toList,
    m.size.repr.toList, m.storageClass.name, m.committedAt.repr.toList]

theorem metaFields_injective : Function.Injective metaFields := by
  intro m m' h
  simp only [metaFields, List.cons.injEq, String.toList_inj, and_true, Nat.repr_inj] at h
  obtain ⟨he, hd, hv, hc, hs, hcls, ht⟩ := h
  obtain ⟨e, d, v, c, s, cls, t⟩ := m
  obtain ⟨e', d', v', c', s', cls', t'⟩ := m'
  obtain rfl := Uid.text_injective he
  obtain rfl := Uid.text_injective hd
  obtain rfl := StorageClass.name_injective hcls
  subst hv hc hs ht
  rfl

theorem fieldText_metaFields {m : ExtentMeta} (hm : m.Plain) : ∀ f ∈ metaFields m, FieldText f := by
  intro f hf
  simp only [metaFields, List.mem_cons, List.not_mem_nil, or_false] at hf
  rcases hf with rfl | rfl | rfl | rfl | rfl | rfl | rfl
  · exact fieldText_uid _
  · exact fieldText_uid _
  · exact fieldText_nat _
  · exact fun c hc => Or.inl (hm c hc)
  · exact fieldText_nat _
  · exact fieldText_class _
  · exact fieldText_nat _

/-! ## 4. The printed text -/

/-- The literal text around the fields, each with the delimiter that ends its field. -/
def metaShape : List (Bytes × UInt8) :=
  [(asciiBytes "\x7b\n  \"extent_id\": \"".toList, 34),
    (asciiBytes ",\n  \"disk_id\": \"".toList, 34),
    (asciiBytes ",\n  \"version\": ".toList, 44),
    (asciiBytes "\n  \"checksum\": \"".toList, 34),
    (asciiBytes ",\n  \"size\": ".toList, 44),
    (asciiBytes "\n  \"storage_class\": \"".toList, 34),
    (asciiBytes ",\n  \"committed_at\": ".toList, 10)]

/-- `serde_json::to_string_pretty` on metadata with a plain checksum. -/
def metaJson (m : ExtentMeta) : Bytes :=
  layout (asciiBytes "\x7d".toList) metaShape ((metaFields m).map asciiBytes)

theorem delimiters_metaFields {m : ExtentMeta} (hm : m.Plain) :
    List.Forall₂ (fun f (p : Bytes × UInt8) => p.2 ∉ f) ((metaFields m).map asciiBytes)
      metaShape := by
  have hnot : ∀ f ∈ metaFields m, ∀ d : UInt8, d = 34 ∨ d = 44 ∨ d = 10 → d ∉ asciiBytes f :=
    fun f hf d hd => delimiter_not_mem (fieldText_metaFields hm f hf) hd
  simp only [metaFields, List.mem_cons, List.not_mem_nil, or_false, forall_eq_or_imp,
    forall_eq] at hnot
  obtain ⟨h1, h2, h3, h4, h5, h6, h7⟩ := hnot
  simp only [metaFields, metaShape, List.map_cons, List.map_nil, List.forall₂_cons,
    List.Forall₂.nil, and_true]
  exact ⟨h1.1, h2.1, h3.2.1, h4.1, h5.2.1, h6.1, h7.2.2⟩

/-- **No printed record is a prefix of another one's text.** -/
theorem metaJson_prefixFree {m m' : ExtentMeta} (hm : m.Plain) (hm' : m'.Plain)
    (h : metaJson m <+: metaJson m') : m = m' := by
  have hfields : (metaFields m).map asciiBytes = (metaFields m').map asciiBytes := by
    unfold metaJson at h
    refine layout_prefixFree ?_ ?_ (delimiters_metaFields hm) (delimiters_metaFields hm') h <;>
      simp only [metaFields, metaShape, List.length_map, List.length_cons, List.length_nil]
  exact metaFields_injective (map_asciiBytes_inj (fieldText_metaFields hm)
    (fieldText_metaFields hm') hfields)

open Classical in
/-- `serde_json` as far as `Externals` speaks of it: the printer above, and a parser that
accepts what the printer prints. -/
noncomputable def jsonExternals (blake3 : Bytes → BitVec 256) : Externals where
  blake3 := blake3
  toStringPretty := metaJson
  fromStr text :=
    if h : ∃ m : ExtentMeta, m.Plain ∧ metaJson m = text then .ok h.choose
    else .error "EOF while parsing an object"
  fromStr_toStringPretty := by
    intro m hm
    have h : ∃ m' : ExtentMeta, m'.Plain ∧ metaJson m' = metaJson m := ⟨m, hm, rfl⟩
    rw [dif_pos h]
    obtain ⟨hplain, heq⟩ := h.choose_spec
    have hp : metaJson h.choose <+: metaJson m := by
      rw [heq]
    rw [metaJson_prefixFree hplain hm hp]
  fromStr_torn := by
    intro m p hm hp hne
    refine ⟨"EOF while parsing an object", dif_neg ?_⟩
    rintro ⟨m', hm', rfl⟩
    rw [metaJson_prefixFree hm' hm hp] at hne
    exact hne rfl

/-- BLAKE3 on the payloads the examples of this development use. -/
def sampleBlake3 : Bytes → BitVec 256
  | [1] => 0x48fc721fbbc172e0925fa27af1671de225ba927134802998b10a1568a188652b#256
  | [2] => 0xab13bedf42e84bae0f7c62c7dd6a8ada571e8829bed6ea558217f0361b5e25d0#256
  | _ => 0#256

end Blockyard.Storage
