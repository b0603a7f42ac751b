import SvelteStories.Proofs.BraceGrammar
import SvelteStories.Proofs.Bytewise
import SvelteStories.Proofs.Reading

/-!
# Brace expressions by byte offsets

Cutting, searching and passing over bytes agree with taking characters off the text, as long as they
start between two characters.  The reader of brace expressions then does what the scanner does, one
turn for one character; where an escape takes it into the middle of a character, it passes over the
bytes that are left of it.

## Key results

- `run_ahead`: turns that each take one byte
- `find?_offsetOf`, `passClass_offsetOf`: searching, and passing over a class of characters
- `resume_eq`, `braceEnd?_offsetOf`: a brace expression ends where the scanner finds its end
- `braceEnd?_congr`: it ends there in every text that has the bytes of the expression
-/

namespace SvelteStories.Markup.Bytewise

open Text

variable {text cs rest : List Char} {c : Char}

/-! ## Parts of the text -/

theorem slice_offsetOf (hrest : rest <:+ cs) (h : cs <:+ text) :
    slice text (offsetOf text cs) (offsetOf text rest) = .ok (consumed cs rest) := by
  rw [slice, slice?_offsetOf hrest h]

theorem sliceFrom_offsetOf (h : cs <:+ text) : sliceFrom text (offsetOf text cs) = .ok cs := by
  have hslice := slice_offsetOf (List.nil_suffix (l := cs)) h
  rwa [offsetOf_nil, consumed, List.length_nil, Nat.sub_zero, List.take_length] at hslice

/-- A search by offsets finds the offset of what the search finds. -/
theorem find?_offsetOf (stop : List Char → Bool) (h : cs <:+ text) :
    find? stop text (offsetOf text cs) = .ok ((seek? stop cs).map (offsetOf text)) := by
  rw [find?, sliceFrom_offsetOf h]
  show Except.ok _ = Except.ok _
  cases hseek : seek? stop cs with
  | none => rfl
  | some rest =>
    rw [Option.map_some, Option.map_some, offsetOf_suffix (suffix_of_seek? hseek).1 h]

/-! ## Loops -/

section Run

variable {σ β : Type} {length i j : Nat} {turn : Nat → σ → Except Halt (Turn σ β)}
  {atEnd : Nat → σ → Except Halt β} {s s' : σ} {answer : β}

/-- A turn that gets ahead. -/
theorem run_next (hi : i < length) (h : turn i s = .ok (.next j s')) (hj : i < j) :
    run length turn atEnd i s = run length turn atEnd j s' := by
  rw [run, if_pos hi, h]
  exact if_pos hj

theorem run_done (hi : i < length) (h : turn i s = .ok (.done answer)) :
    run length turn atEnd i s = .ok answer := by
  rw [run, if_pos hi, h]

theorem run_error {halt : Halt} (hi : i < length) (h : turn i s = .error halt) :
    run length turn atEnd i s = .error halt := by
  rw [run, if_pos hi, h]

theorem run_atEnd : run length turn atEnd length s = atEnd length s := by
  rw [run, if_neg (Nat.lt_irrefl length)]

/-- Turns that take one byte each. -/
theorem run_ahead (hij : i ≤ j) (hj : j ≤ length)
    (h : ∀ k, i ≤ k → k < j → turn k s = .ok (.next (k + 1) s)) :
    run length turn atEnd i s = run length turn atEnd j s := by
  obtain ⟨n, rfl⟩ := Nat.exists_eq_add_of_le hij
  induction n generalizing i with
  | zero => rfl
  | succ n ih =>
    rw [run_next (by omega) (h i (Nat.le_refl i) (by omega)) (Nat.lt_succ_self i),
      ih (by omega) (by omega) fun k hik hkj => h k (by omega) (by omega), Nat.add_right_comm]
    rfl

end Run

/-- Bytes are passed over up to the first character at which a search stops, if the condition tells
    at each byte of a character whether it stops there. -/
theorem passWhile_offsetOf {condition : Nat → Bool} {stop : List Char → Bool} (h : cs <:+ text)
    (hcondition : ∀ c rest k, c :: rest <:+ text → offsetOf text (c :: rest) ≤ k →
      k < offsetOf text rest → condition k = !stop (c :: rest)) :
    passWhile condition text (offsetOf text cs) =
      .ok (offsetOf text ((seek? stop cs).getD [])) := by
  induction cs with
  | nil => exact run_atEnd
  | cons c cs ih =>
    have hcs := (List.suffix_cons c cs).trans h
    rw [seek?]
    split
    · -- the search stops here
      rename_i hstop
      have hlt := offsetOf_lt_of_length (List.suffix_cons c cs) (Nat.lt_succ_self _) h
      refine run_done (offsetOf_lt h) ?_
      rw [hcondition c cs _ h (Nat.le_refl _) hlt, hstop]
      rfl
    · rename_i hgoes
      rw [← ih hcs]
      refine run_ahead (offsetOf_le (List.suffix_cons c cs) h) (offsetOf_le_byteLength text cs)
        fun k hfirst hlast => ?_
      rw [hcondition c cs k h hfirst hlast, Bool.eq_false_iff.mpr hgoes]
      rfl

/-- A class of characters in which all characters that are not ASCII belong or none of them. -/
def IsByteClass (isMember : Char → Bool) : Prop :=
  ∀ a b : Char, 128 ≤ a.toNat → 128 ≤ b.toNat → isMember a = isMember b

/-- The bytes of a character are in such a class if the character is. -/
theorem any_byteAt? {isMember : Char → Bool} (hclass : IsByteClass isMember)
    (h : c :: rest <:+ text)
    {k : Nat} (hfirst : offsetOf text (c :: rest) ≤ k) (hlast : k < offsetOf text rest) :
    (byteAt? text k).any isMember = isMember c := by
  obtain ⟨n, rfl⟩ := Nat.exists_eq_add_of_le hfirst
  rw [offsetOf_cons h] at hlast
  rw [byteAt?_offsetOf_add h]
  -- a character takes one byte, which is itself, or all of its bytes are high
  rcases Nat.lt_or_ge c.toNat 128 with hc | hc
  · have hsize := utf8Size_of_ascii hc
    obtain rfl : n = 0 := by omega
    rw [byteAt?_cons_of_ascii hc, Option.any_some]
  · obtain ⟨d, hd, hhigh⟩ := byteAt?_cons_of_not_ascii hc (by omega : n < c.utf8Size)
    rw [hd, Option.any_some, hclass d c hhigh hc]

/-- The first byte of a character is in such a class if the character is. -/
theorem any_byteAt?_offsetOf {isMember : Char → Bool} (hclass : IsByteClass isMember)
    (h : cs <:+ text) : (byteAt? text (offsetOf text cs)).any isMember = cs.head?.any isMember := by
  cases cs with
  | nil => rw [offsetOf_nil, byteAt?_eq_none (Nat.le_refl _)]; rfl
  | cons c cs =>
    have hpos := c.utf8Size_pos
    rw [any_byteAt? hclass h (Nat.le_refl _) (by rw [offsetOf_cons h]; omega), List.head?_cons,
      Option.any_some]

/-- What is left behind the characters of a class is what a search for another one finds. -/
theorem seek?_eq_dropWhile (isMember : Char → Bool) (cs : List Char) :
    (seek? (fun rest => !rest.head?.any isMember) cs).getD [] = cs.dropWhile isMember := by
  induction cs with
  | nil => rfl
  | cons c cs ih =>
    rw [seek?, List.head?_cons, Option.any_some, List.dropWhile_cons]
    cases isMember c with
    | false => rfl
    | true => exact ih

/-- The bytes of a class are passed over as the characters of the class are. -/
theorem passClass_offsetOf {isMember : Char → Bool} (hclass : IsByteClass isMember)
    (h : cs <:+ text) :
    passClass isMember text (offsetOf text cs) = .ok (offsetOf text (cs.dropWhile isMember)) := by
  rw [← seek?_eq_dropWhile]
  refine passWhile_offsetOf h fun c rest k hrest hfirst hlast => ?_
  rw [any_byteAt? hclass hrest hfirst hlast, List.head?_cons, Option.any_some, Bool.not_not]

/-! ## The reader of brace expressions -/

/-- What the reader knows in a mode of the scanner, outside of comments. -/
def stateOf (depth : Nat) : Braces.Mode → BraceState
  | .quoted quote => { depth, quote := some quote }
  | .template interpolations => { depth, inTemplate := true, interpolations }
  | _ => { depth }

/-- What the reader still does in a mode of the scanner: in a comment, it has found its end. -/
def resume (text cs : List Char) (mode : Braces.Mode) (depth : Nat) : Except Halt (Option Nat) :=
  match mode with
  | .lineComment =>
    braceRun text (((seek? (startsWith ['\n']) cs).map (offsetOf text)).getD (byteLength text))
      { depth }
  | .blockComment =>
    match seek? (startsWith ['*', '/']) cs with
    | none => .ok none
    | some closing => braceRun text (offsetOf text closing + 2) { depth }
  | mode => braceRun text (offsetOf text cs) (stateOf depth mode)

section Turn

variable {a : Char} {s s' : BraceState}

/-- Behind an ASCII character the offset is one more. -/
theorem offsetOf_ascii (h : c :: cs <:+ text) (hc : c.toNat < 128) :
    offsetOf text cs = offsetOf text (c :: cs) + 1 := by
  rw [offsetOf_cons h, utf8Size_of_ascii hc]

/-- An ASCII character is read at the first byte of a suffix exactly if the suffix starts with
    it. -/
theorem byteAt?_first (h : c :: cs <:+ text) (ha : a.toNat < 128) :
    byteAt? text (offsetOf text (c :: cs)) = some a ↔ c = a := by
  rw [byteAt?_offsetOf ha h, List.head?_cons, Option.some_inj]

/-- Behind an ASCII character, the next byte is that of the next character. -/
theorem byteAt?_second (h : c :: cs <:+ text) (hc : c.toNat < 128) (ha : a.toNat < 128) :
    byteAt? text (offsetOf text (c :: cs) + 1) = some a ↔ cs.head? = some a := by
  rw [← offsetOf_ascii h hc, byteAt?_offsetOf ha ((List.suffix_cons c cs).trans h)]

/-- Behind an ASCII character there is another byte exactly if something is left. -/
theorem second_lt_iff (h : c :: cs <:+ text) (hc : c.toNat < 128) :
    offsetOf text (c :: cs) + 1 < byteLength text ↔ cs ≠ [] := by
  rw [← offsetOf_ascii h hc]
  cases cs with
  | nil => simp
  | cons d cs =>
    exact iff_of_true (offsetOf_lt ((List.suffix_cons c _).trans h)) (List.cons_ne_nil d cs)

/-- Bytes that are no ASCII characters are passed over. -/
theorem braceTurn_of_not_ascii {i : Nat} (h : ∀ a : Char, a.toNat < 128 → byteAt? text i ≠ some a)
    (hquote : ∀ quote ∈ s.quote, quote.toNat < 128) :
    braceTurn text i s = .ok (.next (i + 1) s) := by
  cases hs : s.quote with
  | some quote => simp [braceTurn, hs, h quote (hquote quote hs), h '\\']
  | none => simp [braceTurn, hs, h]

/-- A turn at an ASCII character. -/
theorem braceRun_next (h : c :: cs <:+ text) (hc : c.toNat < 128)
    (hturn : braceTurn text (offsetOf text (c :: cs)) s =
      .ok (.next (offsetOf text (c :: cs) + 1) s')) :
    braceRun text (offsetOf text (c :: cs)) s = braceRun text (offsetOf text cs) s' := by
  rw [offsetOf_ascii h hc]
  exact run_next (offsetOf_lt h) hturn (Nat.lt_succ_self _)

/-- What is left of a character behind its first byte is passed over. -/
theorem braceRun_inside (h : c :: cs <:+ text) (hquote : ∀ quote ∈ s.quote, quote.toNat < 128) :
    braceRun text (offsetOf text (c :: cs) + 1) s = braceRun text (offsetOf text cs) s := by
  have hpos := c.utf8Size_pos
  refine run_ahead (by rw [offsetOf_cons h]; omega) (offsetOf_le_byteLength text cs)
    fun k hk hlt => ?_
  exact braceTurn_of_not_ascii (fun a ha => byteAt?_inside ha h hk hlt) hquote

/-- A character that means nothing to the reader, of however many bytes. -/
theorem braceRun_plain (h : c :: cs <:+ text) (hquote : ∀ quote ∈ s.quote, quote.toNat < 128)
    (hturn : c.toNat < 128 → braceTurn text (offsetOf text (c :: cs)) s =
      .ok (.next (offsetOf text (c :: cs) + 1) s)) :
    braceRun text (offsetOf text (c :: cs)) s = braceRun text (offsetOf text cs) s := by
  rcases Nat.lt_or_ge c.toNat 128 with hc | hc
  · exact braceRun_next h hc (hturn hc)
  · rw [← braceRun_inside h hquote]
    refine run_next (offsetOf_lt h) (braceTurn_of_not_ascii (fun a ha => ?_) hquote)
      (Nat.lt_succ_self _)
    rw [ne_eq, byteAt?_first h ha]
    rintro rfl
    omega

end Turn

/-- What is not escaped is not escaped in a longer text either. -/
theorem not_escaped (hesc : ∀ next tail, c = '\\' → cs = next :: tail → False) :
    ¬ (c = '\\' ∧ cs ≠ []) := by
  rintro ⟨hc, hne⟩
  obtain ⟨next, tail, rfl⟩ := List.exists_cons_of_ne_nil hne
  exact hesc next tail hc rfl

theorem not_head? {a b : Char} (h : ∀ tail, c = a → cs = b :: tail → False) :
    ¬ (c = a ∧ cs.head? = some b) := by
  rintro ⟨hc, hhead⟩
  obtain ⟨tail, rfl⟩ := List.head?_eq_some_iff.mp hhead
  exact h tail hc rfl

/-- What a search finds stands behind what it starts with, if that is not found. -/
theorem offsetOf_lt_found {stop : List Char → Bool} (h : c :: cs <:+ text) :
    offsetOf text (c :: cs) < ((seek? stop cs).map (offsetOf text)).getD (byteLength text) := by
  have hcs := (List.suffix_cons c cs).trans h
  have hlt := offsetOf_cons h
  have hpos := c.utf8Size_pos
  cases hseek : seek? stop cs with
  | none => exact offsetOf_lt h
  | some rest =>
    have hle := offsetOf_le (suffix_of_seek? hseek).1 hcs
    rw [Option.map_some, Option.getD_some]
    omega

/-! ### Turns of the reader, by the mode of the scanner -/

section Resume

variable {depth : Nat}

/-- A line comment goes on, or ends with the line. -/
theorem resume_lineComment (h : c :: cs <:+ text) :
    resume text (c :: cs) .lineComment depth =
      resume text cs (if c = '\n' then .code else .lineComment) depth := by
  split
  case isTrue hc =>
    -- the reader goes on at the line feed, which means nothing to it
    subst hc
    refine braceRun_next h (by decide) ?_
    simp (disch := decide) [braceTurn, stateOf, byteAt?_first h]
  case isFalse hc =>
    have hstop : startsWith ['\n'] (c :: cs) = false := by
      rw [← Bool.not_eq_true, startsWith_iff]
      rintro ⟨tail, htail⟩
      exact hc (List.cons.inj htail).1.symm
    rw [resume, resume, seek?, hstop, if_neg Bool.false_ne_true]

/-- A block comment ends. -/
theorem resume_blockComment_end (h : '*' :: '/' :: cs <:+ text) :
    resume text ('*' :: '/' :: cs) .blockComment depth = resume text cs .code depth := by
  have hstop : startsWith ['*', '/'] ('*' :: '/' :: cs) = true := rfl
  rw [resume, seek?, if_pos hstop]
  show braceRun text (offsetOf text _ + 2) _ = braceRun text (offsetOf text cs) _
  rw [offsetOf_ascii ((List.suffix_cons _ _).trans h) (by decide), offsetOf_ascii h (by decide)]
  rfl

/-- A block comment goes on. -/
theorem resume_blockComment (hc : ∀ tail, c = '*' → cs = '/' :: tail → False) :
    resume text (c :: cs) .blockComment depth = resume text cs .blockComment depth := by
  have hstop : startsWith ['*', '/'] (c :: cs) = false := by
    rw [← Bool.not_eq_true, startsWith_iff]
    rintro ⟨tail, htail⟩
    obtain ⟨rfl, rfl⟩ := List.cons.inj htail
    exact hc tail rfl rfl
  rw [resume, resume, seek?, hstop, if_neg Bool.false_ne_true]

/-- The reader jumps two bytes over a backslash, perhaps into the character behind it. -/
theorem resume_escape {mode : Braces.Mode} (h : '\\' :: c :: cs <:+ text) (hl : mode ≠ .lineComment)
    (hb : mode ≠ .blockComment) (hm : ∀ quote, mode = .quoted quote → quote = '"' ∨ quote = '\'') :
    resume text ('\\' :: c :: cs) mode depth = resume text cs mode depth := by
  -- the quote that the reader looks for is no part of the character it lands in
  have hquote : ∀ quote ∈ (stateOf depth mode).quote, quote.toNat < 128 := by
    cases mode <;> simp [stateOf]
    rcases hm _ rfl with rfl | rfl <;> decide
  have hlt := (second_lt_iff h (by decide)).mpr (List.cons_ne_nil c cs)
  -- the jump goes over the backslash and the first byte behind it
  have hturn : braceTurn text (offsetOf text ('\\' :: c :: cs)) (stateOf depth mode) =
      .ok (.next (offsetOf text ('\\' :: c :: cs) + 2) (stateOf depth mode)) := by
    rw [braceTurn, if_pos ⟨(byteAt?_first h (by decide)).mpr rfl, hlt⟩]
  have hrun : braceRun text (offsetOf text ('\\' :: c :: cs)) (stateOf depth mode) =
      braceRun text (offsetOf text cs) (stateOf depth mode) := by
    rw [← braceRun_inside ((List.suffix_cons _ _).trans h) hquote, offsetOf_ascii h (by decide)]
    exact run_next (offsetOf_lt h) hturn (by omega)
  cases mode with
  | lineComment => exact absurd rfl hl
  | blockComment => exact absurd rfl hb
  | _ => exact hrun

/-- A string goes on, or ends with its quote. -/
theorem resume_quoted {quote : Char} (h : c :: cs <:+ text) (hquote : quote = '"' ∨ quote = '\'')
    (hesc : ∀ next tail, c = '\\' → cs = next :: tail → False) :
    resume text (c :: cs) (.quoted quote) depth =
      resume text cs (if c = quote then .code else .quoted quote) depth := by
  have hascii : quote.toNat < 128 := by rcases hquote with rfl | rfl <;> decide
  split
  case isTrue hc =>
    subst hc
    -- the quote ends the string
    refine braceRun_next (s := stateOf depth (.quoted c)) h hascii ?_
    have hnot : c ≠ '\\' := by rcases hquote with rfl | rfl <;> decide
    simp (disch := first | assumption | decide) [braceTurn, stateOf, byteAt?_first h, hnot]
  case isFalse hc =>
    refine braceRun_plain (s := stateOf depth (.quoted quote)) h (by simpa [stateOf] using hascii)
      fun hlow => ?_
    simp (disch := first | assumption | decide) only [braceTurn, stateOf, byteAt?_first h,
      second_lt_iff h hlow, not_escaped hesc, hc, if_false]

/-- An interpolation starts in a template. -/
theorem resume_interpolation {k : Nat} (h : '$' :: '{' :: cs <:+ text) :
    resume text ('$' :: '{' :: cs) (.template k) depth =
      resume text cs (.template (k + 1)) depth := by
  have hbrace := (List.suffix_cons _ _).trans h
  have hturn : braceTurn text (offsetOf text ('$' :: '{' :: cs)) (stateOf depth (.template k)) =
      .ok (.next (offsetOf text ('$' :: '{' :: cs) + 2) (stateOf depth (.template (k + 1)))) := by
    simp (disch := decide) [braceTurn, stateOf, byteAt?_first h, byteAt?_second h]
  show braceRun text _ _ = braceRun text _ _
  rw [offsetOf_ascii hbrace (by decide), offsetOf_ascii h (by decide)]
  exact run_next (offsetOf_lt h) hturn (by omega)

/-- A template goes on. -/
theorem resume_template {k : Nat} (h : c :: cs <:+ text)
    (hesc : ∀ next tail, c = '\\' → cs = next :: tail → False) (hends : c = '\x60' → k = 0 → False)
    (hopen : ∀ tail, c = '$' → cs = '{' :: tail → False)
    (hclose : ∀ l, c = '}' → k = Nat.succ l → False) :
    resume text (c :: cs) (.template k) depth = resume text cs (.template k) depth := by
  refine braceRun_plain h (by simp [stateOf]) fun hc => ?_
  -- none of the signs that a template knows is here
  have hends : ¬ (c = '\x60' ∧ k = 0) := fun hboth => hends hboth.1 hboth.2
  have hleaves : ¬ (c = '}' ∧ 0 < k) := by
    rintro ⟨rfl, hk⟩
    obtain ⟨k, rfl⟩ := Nat.exists_eq_add_one.mpr hk
    exact hclose k rfl rfl
  simp (disch := decide) only [braceTurn, stateOf, byteAt?_first h, byteAt?_second h hc,
    second_lt_iff h hc, not_escaped hesc, hends, not_head? hopen, hleaves, if_false, if_true]

/-- A line comment starts, to the end of which the reader goes at once. -/
theorem resume_lineComment_start (h : '/' :: '/' :: cs <:+ text) :
    resume text ('/' :: '/' :: cs) .code depth = resume text cs .lineComment depth := by
  have hslash := (List.suffix_cons _ _).trans h
  -- the search for the line feed starts at the first slash
  have hfind : find? (startsWith ['\n']) text (offsetOf text ('/' :: '/' :: cs)) =
      .ok ((seek? (startsWith ['\n']) cs).map (offsetOf text)) := find?_offsetOf _ h
  have hturn : braceTurn text (offsetOf text ('/' :: '/' :: cs)) (stateOf depth .code) =
      .ok (.next (((seek? (startsWith ['\n']) cs).map (offsetOf text)).getD (byteLength text))
        { depth }) := by
    simp (disch := decide) [braceTurn, stateOf, byteAt?_first h, byteAt?_second h, hfind, bind,
      Except.bind, pure, Except.pure]
  refine run_next (offsetOf_lt h) hturn (Nat.lt_trans ?_ (offsetOf_lt_found hslash))
  rw [offsetOf_ascii h (by decide)]
  exact Nat.lt_succ_self _

/-- A block comment starts, to the end of which the reader goes at once. -/
theorem resume_blockComment_start (h : '/' :: '*' :: cs <:+ text) :
    resume text ('/' :: '*' :: cs) .code depth = resume text cs .blockComment depth := by
  have hstar := (List.suffix_cons _ _).trans h
  have hcs := (List.suffix_cons _ cs).trans hstar
  -- the search for the end starts behind the sign
  have hstart : offsetOf text cs = offsetOf text ('/' :: '*' :: cs) + 2 := by
    rw [offsetOf_ascii hstar (by decide), offsetOf_ascii h (by decide)]
  have hfind : find? (startsWith ['*', '/']) text (offsetOf text ('/' :: '*' :: cs) + 2) =
      .ok ((seek? (startsWith ['*', '/']) cs).map (offsetOf text)) := by
    rw [← find?_offsetOf _ hcs, hstart]
  rw [resume.eq_def text cs]
  cases hseek : seek? (startsWith ['*', '/']) cs with
  | none =>
    rw [hseek] at hfind
    refine run_done (offsetOf_lt h) ?_
    simp (disch := decide) [braceTurn, stateOf, byteAt?_first h, byteAt?_second h, hfind, bind,
      Except.bind, pure, Except.pure]
  | some closing =>
    rw [hseek] at hfind
    have hturn : braceTurn text (offsetOf text ('/' :: '*' :: cs)) (stateOf depth .code) =
        .ok (.next (offsetOf text closing + 2) { depth }) := by
      simp (disch := decide) [braceTurn, stateOf, byteAt?_first h, byteAt?_second h, hfind, bind,
        Except.bind, pure, Except.pure]
    have hahead := offsetOf_le (suffix_of_seek? hseek).1 hcs
    exact run_next (offsetOf_lt h) hturn (by omega)

/-- Code goes on, outside of comments, strings and templates. -/
theorem resume_code (h : c :: cs <:+ text)
    (hesc : ∀ next tail, c = '\\' → cs = next :: tail → False)
    (hline : ∀ tail, c = '/' → cs = '/' :: tail → False)
    (hblock : ∀ tail, c = '/' → cs = '*' :: tail → False) (hdouble : c ≠ '"') (hsingle : c ≠ '\'')
    (htemplate : c ≠ '\x60') (hopen : c ≠ '{') (hclose : c ≠ '}') :
    resume text (c :: cs) .code depth = resume text cs .code depth := by
  refine braceRun_plain h (by simp [stateOf]) fun hc => ?_
  simp (disch := decide) only [braceTurn, stateOf, byteAt?_first h, byteAt?_second h hc,
    second_lt_iff h hc, not_escaped hesc, not_head? hline, not_head? hblock, if_neg hdouble,
    if_neg hsingle, if_neg htemplate, if_neg hopen, hclose, if_false, Bool.false_eq_true]

end Resume

/-- The reader does what the scanner does. -/
theorem resume_eq (mode : Braces.Mode) {depth : Nat} (h : cs <:+ text) (hd : 0 < depth)
    (hm : ∀ quote, mode = .quoted quote → quote = '"' ∨ quote = '\'') :
    resume text cs mode depth = .ok ((Braces.scan cs mode depth).map (offsetOf text)) := by
  fun_induction Braces.scan cs mode depth with
  | case1 mode depth =>
    cases mode with
    | blockComment => rfl
    | _ => exact run_atEnd
  -- In a comment.
  | case2 c cs depth ih =>
    rw [resume_lineComment h, ih ((List.suffix_cons _ cs).trans h) hd (by split <;> simp)]
  | case3 cs depth ih =>
    have hslash := (List.suffix_cons _ _).trans h
    rw [resume_blockComment_end h, ih ((List.suffix_cons _ cs).trans hslash) hd (by simp)]
  | case4 c cs depth hc ih =>
    rw [resume_blockComment hc, ih ((List.suffix_cons _ cs).trans h) hd (by simp)]
  -- An escape, in any other mode.
  | case5 c cs mode depth hl hb ih =>
    have hc := (List.suffix_cons _ (c :: cs)).trans h
    rw [resume_escape h hl hb hm, ih ((List.suffix_cons _ cs).trans hc) hd hm]
  -- In a string.
  | case6 c cs quote depth hesc ih =>
    rw [resume_quoted h (hm quote rfl) hesc,
      ih ((List.suffix_cons _ cs).trans h) hd (by split <;> simp_all)]
  -- In a template literal.
  | case7 cs depth ih =>
    rw [← ih ((List.suffix_cons _ cs).trans h) hd (by simp)]
    refine braceRun_next h (by decide) ?_
    simp (disch := decide) [braceTurn, stateOf, byteAt?_first h]
  | case8 cs k depth ih =>
    have hbrace := (List.suffix_cons _ _).trans h
    rw [resume_interpolation h, ih ((List.suffix_cons _ cs).trans hbrace) hd (by simp)]
  | case9 cs k depth ih =>
    rw [← ih ((List.suffix_cons _ cs).trans h) hd (by simp)]
    refine braceRun_next h (by decide) ?_
    simp (disch := decide) [braceTurn, stateOf, byteAt?_first h]
  | case10 c cs k depth hesc hquote hopen hclose ih =>
    rw [resume_template h hesc hquote hopen hclose,
      ih ((List.suffix_cons _ cs).trans h) hd (by simp)]
  -- In code.
  | case11 cs depth ih =>
    have hslash := (List.suffix_cons _ _).trans h
    rw [resume_lineComment_start h, ih ((List.suffix_cons _ cs).trans hslash) hd (by simp)]
  | case12 cs depth ih =>
    have hstar := (List.suffix_cons _ _).trans h
    rw [resume_blockComment_start h, ih ((List.suffix_cons _ cs).trans hstar) hd (by simp)]
  | case13 cs depth ih =>
    rw [← ih ((List.suffix_cons _ cs).trans h) hd (by simp)]
    refine braceRun_next h (by decide) ?_
    simp (disch := decide) [braceTurn, stateOf, byteAt?_first h]
  | case14 cs depth ih =>
    rw [← ih ((List.suffix_cons _ cs).trans h) hd (by simp)]
    refine braceRun_next h (by decide) ?_
    simp (disch := decide) [braceTurn, stateOf, byteAt?_first h]
  | case15 cs depth ih =>
    rw [← ih ((List.suffix_cons _ cs).trans h) hd (by simp)]
    refine braceRun_next h (by decide) ?_
    simp (disch := decide) [braceTurn, stateOf, byteAt?_first h]
  | case16 cs depth ih =>
    rw [← ih ((List.suffix_cons _ cs).trans h) (Nat.succ_pos _) (by simp)]
    refine braceRun_next h (by decide) ?_
    simp (disch := decide) [braceTurn, stateOf, byteAt?_first h]
  | case17 cs =>
    rw [Option.map_some, offsetOf_ascii h (by decide)]
    refine run_done (offsetOf_lt h) ?_
    simp (disch := decide) [braceTurn, stateOf, byteAt?_first h]
  | case18 => exact absurd hd (Nat.lt_irrefl 0)
  | case19 cs depth ih =>
    rw [← ih ((List.suffix_cons _ cs).trans h) (Nat.succ_pos _) (by simp)]
    refine braceRun_next h (by decide) ?_
    simp (disch := decide) [braceTurn, stateOf, byteAt?_first h]
  | case20 c cs depth hesc hline hblock hdouble hsingle htemplate hopen h₁ h₀ h₂ ih =>
    have hclose : c ≠ '}' := by
      rcases depth with _ | _ | depth
      · exact h₀ rfl
      · exact h₁ rfl
      · exact h₂ depth rfl
    rw [resume_code h hesc hline hblock hdouble hsingle htemplate hopen hclose,
      ih ((List.suffix_cons _ cs).trans h) hd (by simp)]

/-- A brace expression ends where the scanner finds its end. -/
theorem braceEnd?_offsetOf (h : '{' :: cs <:+ text) :
    braceEnd? text (offsetOf text ('{' :: cs)) =
      .ok ((Braces.after? ('{' :: cs)).map (offsetOf text)) := by
  have hcs := (List.suffix_cons _ cs).trans h
  have hrest := resume_eq .code hcs Nat.one_pos (by simp)
  rw [Braces.after?, Braces.scan, ← hrest]
  refine braceRun_next h (by decide) ?_
  simp (disch := decide) [braceTurn, stateOf, byteAt?_first h]

/-- The bytes of a brace expression decide where it ends: in every text that has them, wherever they
    stand and whatever is around them. -/
theorem braceEnd?_congr {text' : List Char} {start start' stop : Nat}
    (hopen : byteAt? text start = some '{') (hstop : braceEnd? text start = .ok (some stop))
    (hsame : ∀ k, start + k < stop → (utf8 text')[start' + k]? = (utf8 text)[start + k]?) :
    braceEnd? text' start' = .ok (some (start' + (stop - start))) := by
  obtain ⟨cs, hcs, rfl⟩ := exists_of_byteAt? (by decide) hopen
  rw [braceEnd?_offsetOf hcs, Except.ok.injEq, Option.map_eq_some_iff] at hstop
  obtain ⟨rest, hafter, rfl⟩ := hstop
  obtain ⟨inside, rfl, hother⟩ := Braces.exists_of_after?_eq_some hafter
  -- what the brace expression takes
  generalize hpiece : '{' :: (inside ++ ['}']) = piece
  have hjoin (other : List Char) : '{' :: (inside ++ '}' :: other) = piece ++ other := by
    simp [← hpiece]
  rw [hjoin] at hcs hsame ⊢
  have hlength := offsetOf_suffix (List.suffix_append piece rest) hcs
  rw [consumed_append_self] at hlength
  have hpos : 0 < byteLength piece := by
    rw [← hpiece, byteLength_cons]
    exact Nat.add_pos_left (Char.utf8Size_pos _) _
  -- the other text has a brace at the other place, and the same characters from there on
  have hbytes (k : Nat) (hk : k < byteLength piece) :
      (utf8 text')[start' + k]? = (utf8 piece)[k]? := by
    rw [hsame k (by omega), getElem?_utf8_offsetOf_add hcs, utf8_append,
      List.getElem?_append_left (by rwa [length_utf8])]
  have hopen' : byteAt? text' start' = some '{' := by
    have hfirst := hbytes 0 hpos
    rw [Nat.add_zero] at hfirst
    rw [byteAt?, hfirst, ← hpiece]
    exact byteAt?_cons_of_ascii (by decide)
  obtain ⟨cs', hcs', rfl⟩ := exists_of_byteAt? (by decide) hopen'
  have hprefix : piece <+: '{' :: cs' := by
    refine prefix_of_utf8_prefix (List.prefix_iff_getElem?.mpr fun k hk => ?_)
    rw [length_utf8] at hk
    rw [← getElem?_utf8_offsetOf_add hcs', hbytes k hk, List.getElem?_eq_getElem]
  obtain ⟨rest', hrest'⟩ := hprefix
  rw [braceEnd?_offsetOf hcs', ← hrest', ← hjoin, hother, Option.map_some, hjoin, hrest',
    offsetOf_suffix ⟨piece, hrest'⟩ hcs', ← hrest', consumed_append_self]
  congr 2
  omega

end SvelteStories.Markup.Bytewise
