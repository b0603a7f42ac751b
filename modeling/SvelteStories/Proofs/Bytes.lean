import SvelteStories.Proofs.Slices

/-!
# The bytes of a text

A byte offset may stand inside a character.  This module looks at a text one byte at a time and says
what a byte tells of the characters: an ASCII byte is a character of its own, and the bytes of all
other characters lie above the ASCII ones, so that they are taken for none of them.

An offset between two characters is named by what is left of the text there, see `offsetOf`.

## Key results

- `byteAt?_offsetOf`: the byte at the start of what is left
- `byteAt?_inside`: the other bytes of a character
- `exists_of_byteAt?`: where an ASCII byte stands, a character starts
- `prefix_of_utf8_prefix`: texts whose bytes begin alike
-/

namespace SvelteStories.Text

variable {text cs rest before : List Char} {c a : Char} {n i : Nat}

/-- The bytes of a text. -/
def utf8 (text : List Char) : List UInt8 :=
  text.flatMap String.utf8EncodeChar

/-- The byte at an offset, as the character with its number. -/
def byteAt? (text : List Char) (offset : Nat) : Option Char :=
  (utf8 text)[offset]?.map fun byte => Char.ofNat byte.toNat

/-- The offset at which a rest of the text starts. -/
def offsetOf (text rest : List Char) : Nat :=
  byteLength text - byteLength rest

/-! ## Offsets -/

/-- A rest starts behind what stands before it. -/
@[simp] theorem offsetOf_append (before rest : List Char) :
    offsetOf (before ++ rest) rest = byteLength before := by
  rw [offsetOf, byteLength_append, Nat.add_sub_cancel]

@[simp] theorem offsetOf_self (text : List Char) : offsetOf text text = 0 :=
  Nat.sub_self _

@[simp] theorem offsetOf_nil (text : List Char) : offsetOf text [] = byteLength text := rfl

/-- A rest of a rest starts behind what stands between the two. -/
theorem offsetOf_suffix (hrest : rest <:+ cs) (h : cs <:+ text) :
    offsetOf text rest = offsetOf text cs + byteLength (consumed cs rest) := by
  obtain ⟨between, rfl⟩ := hrest
  obtain ⟨before, rfl⟩ := h
  rw [consumed_append_self, offsetOf_append, ← List.append_assoc, offsetOf_append,
    byteLength_append]

/-- Behind a character, the rest starts as many bytes later as the character has. -/
theorem offsetOf_cons (h : c :: rest <:+ text) :
    offsetOf text rest = offsetOf text (c :: rest) + c.utf8Size := by
  have hoffset := offsetOf_suffix (List.suffix_cons c rest) h
  rwa [show c :: rest = [c] ++ rest from rfl, consumed_append_self, byteLength_cons, byteLength_nil]
    at hoffset

/-- A rest of a rest starts no earlier. -/
theorem offsetOf_le (h : rest <:+ cs) (hcs : cs <:+ text) :
    offsetOf text cs ≤ offsetOf text rest := by
  rw [offsetOf_suffix h hcs]
  exact Nat.le_add_right _ _

/-- A shorter rest of a rest starts later. -/
theorem offsetOf_lt_of_length (h : rest <:+ cs) (hlength : rest.length < cs.length)
    (hcs : cs <:+ text) :
    offsetOf text cs < offsetOf text rest := by
  rw [offsetOf_suffix h hcs]
  obtain ⟨between, rfl⟩ := h
  cases between with
  | nil => exact absurd hlength (Nat.lt_irrefl _)
  | cons c between =>
    have hpos := c.utf8Size_pos
    rw [consumed_append_self, byteLength_cons]
    omega

/-- Every rest starts inside the text or at its end. -/
theorem offsetOf_le_byteLength (text rest : List Char) : offsetOf text rest ≤ byteLength text :=
  Nat.sub_le _ _

/-- A rest with a character starts before the end of the text. -/
theorem offsetOf_lt (h : c :: rest <:+ text) : offsetOf text (c :: rest) < byteLength text := by
  have hpos := c.utf8Size_pos
  have hcons := offsetOf_cons h
  have := offsetOf_le_byteLength text rest
  omega

/-- The part of the text between two offsets. -/
theorem slice?_offsetOf (hrest : rest <:+ cs) (h : cs <:+ text) :
    Span.slice? ⟨offsetOf text cs, offsetOf text rest⟩ text = some (consumed cs rest) := by
  have hstop := offsetOf_suffix hrest h
  obtain ⟨part, rfl⟩ := hrest
  obtain ⟨before, rfl⟩ := h
  rw [hstop, offsetOf_append, consumed_append_self, slice?_of_append]

/-- A span that selects a part of the text starts and stops between two characters. -/
theorem exists_of_slice? {span : Span} {part : List Char} (h : span.slice? text = some part) :
    ∃ cs rest, rest <:+ cs ∧ cs <:+ text ∧ span = ⟨offsetOf text cs, offsetOf text rest⟩ := by
  obtain ⟨start, stop⟩ := span
  obtain ⟨before, after, rfl, rfl, rfl⟩ := slice?_eq_some.mp h
  refine ⟨part ++ after, after, List.suffix_append _ _, List.suffix_append _ _, ?_⟩
  rw [offsetOf_append, ← List.append_assoc, offsetOf_append, byteLength_append]

/-- What starts later is a rest of what starts before. -/
theorem suffix_of_offsetOf_le (hrest : rest <:+ text) (h : cs <:+ text)
    (hle : offsetOf text cs ≤ offsetOf text rest) : rest <:+ cs := by
  rcases List.suffix_or_suffix_of_suffix hrest h with hsuffix | hsuffix
  · exact hsuffix
  · -- otherwise the later one would start with what is between them
    have hoffset := offsetOf_suffix hsuffix hrest
    obtain ⟨between, rfl⟩ := hsuffix
    rw [consumed_append_self] at hoffset
    cases between with
    | nil => exact List.suffix_refl cs
    | cons c between =>
      have hpos := c.utf8Size_pos
      rw [byteLength_cons] at hoffset
      omega

/-- What stands between two parts of a text is a part of it. -/
theorem exists_slice?_between {first second : Span} {a b : List Char}
    (hfirst : first.slice? text = some a)
    (hsecond : second.slice? text = some b) (hle : first.stop ≤ second.start) :
    ∃ between, Span.slice? ⟨first.stop, second.start⟩ text = some between := by
  obtain ⟨cs, start, hstart, hcs, rfl⟩ := exists_of_slice? hfirst
  obtain ⟨stop, rest, hrest, hstop, rfl⟩ := exists_of_slice? hsecond
  have hbehind := suffix_of_offsetOf_le hstop (hstart.trans hcs) hle
  exact ⟨_, slice?_offsetOf hbehind (hstart.trans hcs)⟩

/-! ## Bytes -/

/-- A text has as many bytes as its characters have together. -/
@[simp] theorem length_utf8 (text : List Char) : (utf8 text).length = byteLength text := by
  induction text with
  | nil => rfl
  | cons c cs ih =>
    rw [utf8, List.flatMap_cons, List.length_append, String.length_utf8EncodeChar, byteLength_cons]
    exact congrArg (c.utf8Size + ·) ih

theorem utf8_append (before rest : List Char) : utf8 (before ++ rest) = utf8 before ++ utf8 rest :=
  List.flatMap_append

theorem utf8_cons (c : Char) (cs : List Char) :
    utf8 (c :: cs) = String.utf8EncodeChar c ++ utf8 cs :=
  List.flatMap_cons

/-- The byte of a number below 256 has that number. -/
theorem toNat_ofNat_toNat (byte : UInt8) : (Char.ofNat byte.toNat).toNat = byte.toNat := by
  have hlt := byte.toNat_lt
  have hvalid : byte.toNat.isValidChar := .inl (by omega)
  rw [Char.ofNat, dif_pos hvalid]
  rfl

/-- An ASCII character takes one byte, which has its number. -/
theorem utf8EncodeChar_of_ascii (hc : c.toNat < 128) :
    String.utf8EncodeChar c = [UInt8.ofNat c.toNat] := by
  have hle : c.val.toNat ≤ 127 := Nat.le_of_lt_succ hc
  rw [String.utf8EncodeChar, if_pos hle]
  rfl

/-- An ASCII character has one byte. -/
theorem utf8Size_of_ascii (hc : c.toNat < 128) : c.utf8Size = 1 := by
  rw [← String.length_utf8EncodeChar, utf8EncodeChar_of_ascii hc, List.length_singleton]

/-- The bytes of any other character are not in the ASCII range. -/
theorem le_of_mem_utf8EncodeChar (hc : 128 ≤ c.toNat) {byte : UInt8}
    (hbyte : byte ∈ String.utf8EncodeChar c) : 128 ≤ byte.toNat := by
  have hnot : ¬ c.val.toNat ≤ 127 := Nat.not_le_of_lt hc
  simp only [String.utf8EncodeChar, if_neg hnot] at hbyte
  -- each byte has a mark of 128 at least, added to fewer bits than the mark leaves
  split at hbyte
  · simp only [List.mem_cons, List.not_mem_nil, or_false] at hbyte
    rcases hbyte with rfl | rfl <;> rw [UInt8.toNat_ofNat'] <;> omega
  · split at hbyte
    · simp only [List.mem_cons, List.not_mem_nil, or_false] at hbyte
      rcases hbyte with rfl | rfl | rfl <;> rw [UInt8.toNat_ofNat'] <;> omega
    · simp only [List.mem_cons, List.not_mem_nil, or_false] at hbyte
      rcases hbyte with rfl | rfl | rfl | rfl <;> rw [UInt8.toNat_ofNat'] <;> omega

/-- The byte at an offset is the byte of what is left there. -/
theorem getElem?_utf8_offsetOf_add (h : cs <:+ text) (n : Nat) :
    (utf8 text)[offsetOf text cs + n]? = (utf8 cs)[n]? := by
  obtain ⟨before, rfl⟩ := h
  rw [offsetOf_append, utf8_append, List.getElem?_append_right (by simp), length_utf8,
    Nat.add_sub_cancel_left]

/-- The bytes of a rest are those of the text from where the rest starts. -/
theorem byteAt?_offsetOf_add (h : cs <:+ text) (n : Nat) :
    byteAt? text (offsetOf text cs + n) = byteAt? cs n := by
  rw [byteAt?, byteAt?, getElem?_utf8_offsetOf_add h]

/-- There are no bytes at the end of a text or behind it. -/
theorem byteAt?_eq_none (h : byteLength text ≤ i) : byteAt? text i = none := by
  rw [byteAt?, List.getElem?_eq_none (by rwa [length_utf8]), Option.map_none]

/-- There is a byte at every offset before the end of a text. -/
theorem byteAt?_isSome (h : i < byteLength text) : (byteAt? text i).isSome = true := by
  rw [byteAt?, List.getElem?_eq_getElem (by rwa [length_utf8]), Option.map_some, Option.isSome_some]

/-- The byte of an ASCII character is the character. -/
theorem byteAt?_cons_of_ascii (hc : c.toNat < 128) : byteAt? (c :: cs) 0 = some c := by
  rw [byteAt?, utf8_cons, utf8EncodeChar_of_ascii hc, List.singleton_append,
    List.getElem?_cons_zero, Option.map_some, UInt8.toNat_ofNat', Nat.mod_eq_of_lt (by omega),
    Char.ofNat_toNat]

/-- The bytes of any other character are taken for characters that are not ASCII. -/
theorem byteAt?_cons_of_not_ascii (hc : 128 ≤ c.toNat) (hn : n < c.utf8Size) :
    ∃ d, byteAt? (c :: cs) n = some d ∧ 128 ≤ d.toNat := by
  have hlength : n < (String.utf8EncodeChar c).length := by rwa [String.length_utf8EncodeChar]
  refine ⟨Char.ofNat ((String.utf8EncodeChar c)[n]).toNat, ?_, ?_⟩
  · rw [byteAt?, utf8_cons, List.getElem?_append_left hlength, List.getElem?_eq_getElem hlength,
      Option.map_some]
  · rw [toNat_ofNat_toNat]
    exact le_of_mem_utf8EncodeChar hc (List.getElem_mem hlength)

/-- An ASCII byte in a character is the whole character. -/
theorem eq_of_byteAt?_cons (ha : a.toNat < 128) (hn : n < c.utf8Size)
    (h : byteAt? (c :: cs) n = some a) : c = a ∧ n = 0 := by
  rcases Nat.lt_or_ge c.toNat 128 with hc | hc
  · rw [utf8Size_of_ascii hc, Nat.lt_one_iff] at hn
    subst hn
    rw [byteAt?_cons_of_ascii hc] at h
    exact ⟨Option.some.inj h, rfl⟩
  · obtain ⟨d, hd, hhigh⟩ := byteAt?_cons_of_not_ascii hc hn
    obtain rfl : d = a := Option.some.inj (hd.symm.trans h)
    omega

/-- The byte at an offset is an ASCII character exactly if what is left there starts with it. -/
theorem byteAt?_offsetOf (ha : a.toNat < 128) (h : cs <:+ text) :
    byteAt? text (offsetOf text cs) = some a ↔ cs.head? = some a := by
  rw [← Nat.add_zero (offsetOf text cs), byteAt?_offsetOf_add h]
  cases cs with
  | nil => simp [byteAt?, utf8]
  | cons c cs =>
    rw [List.head?_cons, Option.some_inj]
    constructor
    · exact fun hbyte => (eq_of_byteAt?_cons ha c.utf8Size_pos hbyte).1
    · rintro rfl
      exact byteAt?_cons_of_ascii ha

/-- Inside a character there is no ASCII byte. -/
theorem byteAt?_inside (ha : a.toNat < 128) (h : c :: rest <:+ text)
    (hfirst : offsetOf text (c :: rest) < i) (hlast : i < offsetOf text rest) :
    byteAt? text i ≠ some a := by
  rw [offsetOf_cons h] at hlast
  obtain ⟨n, rfl⟩ := Nat.exists_eq_add_of_lt hfirst
  rw [Nat.add_assoc, byteAt?_offsetOf_add h]
  intro hbyte
  exact absurd (eq_of_byteAt?_cons ha (by omega) hbyte).2 (Nat.succ_ne_zero n)

/-- Another character has no byte that is an ASCII character. -/
theorem byteAt?_ne (ha : a.toNat < 128) (hne : c ≠ a) (h : c :: rest <:+ text)
    (hfirst : offsetOf text (c :: rest) ≤ i) (hlast : i < offsetOf text rest) :
    byteAt? text i ≠ some a := by
  rcases Nat.eq_or_lt_of_le hfirst with rfl | hfirst
  · rw [ne_eq, byteAt?_offsetOf ha h, List.head?_cons, Option.some_inj]
    exact hne
  · exact byteAt?_inside ha h hfirst hlast

/-- Where an ASCII byte stands, the character starts. -/
theorem exists_of_byteAt? (ha : a.toNat < 128) (h : byteAt? text i = some a) :
    ∃ rest, a :: rest <:+ text ∧ i = offsetOf text (a :: rest) := by
  induction text generalizing i with
  | nil => simp [byteAt?, utf8] at h
  | cons c cs ih =>
    rcases Nat.lt_or_ge i c.utf8Size with hi | hi
    · obtain ⟨rfl, rfl⟩ := eq_of_byteAt?_cons ha hi h
      exact ⟨cs, List.suffix_refl _, (offsetOf_self _).symm⟩
    · -- the byte stands behind the first character
      obtain ⟨n, rfl⟩ := Nat.exists_eq_add_of_le hi
      have hcons := offsetOf_cons (List.suffix_refl (c :: cs))
      rw [offsetOf_self, Nat.zero_add] at hcons
      rw [← hcons, byteAt?_offsetOf_add (List.suffix_cons c cs)] at h
      obtain ⟨rest, hrest, rfl⟩ := ih h
      have hsuffix := hrest.trans (List.suffix_cons c cs)
      refine ⟨rest, hsuffix, ?_⟩
      obtain ⟨before, rfl⟩ := hrest
      rw [offsetOf_append, ← List.cons_append, offsetOf_append, byteLength_cons]

/-! ## Texts with the same bytes -/

/-- Characters whose bytes begin alike are the same. -/
theorem eq_of_utf8EncodeChar_append {d : Char} {x y : List UInt8}
    (h : String.utf8EncodeChar c ++ x = String.utf8EncodeChar d ++ y) : c = d := by
  have hdecode := congrArg (fun bytes => bytes.toByteArray.utf8DecodeChar? 0) h
  simp only [List.toByteArray_append, ByteArray.utf8DecodeChar?_utf8EncodeChar_append] at hdecode
  exact Option.some.inj hdecode

/-- A text begins with another one if its bytes do. -/
theorem prefix_of_utf8_prefix (h : utf8 cs <+: utf8 text) : cs <+: text := by
  induction cs generalizing text with
  | nil => exact List.nil_prefix
  | cons c cs ih =>
    obtain ⟨more, hmore⟩ := h
    rw [utf8_cons, List.append_assoc] at hmore
    cases text with
    | nil => exact absurd hmore (by simp [utf8, String.utf8EncodeChar_ne_nil])
    | cons d text =>
      rw [utf8_cons] at hmore
      obtain rfl := eq_of_utf8EncodeChar_append hmore
      exact List.cons_prefix_cons.mpr ⟨rfl, ih ⟨more, List.append_cancel_left hmore⟩⟩

end SvelteStories.Text
