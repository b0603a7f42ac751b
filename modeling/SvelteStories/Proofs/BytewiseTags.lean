import SvelteStories.Proofs.BraceRegions
import SvelteStories.Proofs.TagRoundTrip

/-!
# Tags by byte offsets

Each reader of a part of a tag that works with byte offsets answers what the reader of the same name
answers that takes characters off the text, with the offset of what that one leaves, see `lift`.  So
it cuts the text between characters only, and every turn of its loops gets ahead.

## Key results

- `run_quoteTurn`, `readValue_offsetOf`: the values of attributes
- `readAttribute_offsetOf`: one attribute
- `run_attributeTurn`, `readTag_offsetOf`: all attributes of a tag, and the tag
-/

namespace SvelteStories.Markup.Bytewise

open Text

variable {text cs rest : List Char} {c : Char} {here : Nat}

/-- What a reader answers, with the offset of what it leaves. -/
def lift {α : Type} (text : List Char) :
    Except LocatedFault (α × List Char) → Except Halt (α × Nat)
  | .error fault => .error (.fault fault)
  | .ok (answer, rest) => .ok (answer, offsetOf text rest)

/-! ## Brace expressions -/

/-- The brace expression that a text starts with, if it ends. -/
theorem split?_cases (cs : List Char) :
    (Braces.after? ('{' :: cs) = none ∧ Braces.split? ('{' :: cs) = none) ∨
      ∃ inside rest, cs = inside ++ '}' :: rest ∧ Braces.after? ('{' :: cs) = some rest ∧
        Braces.split? ('{' :: cs) = some (inside, rest) := by
  cases hafter : Braces.after? ('{' :: cs) with
  | none => exact .inl ⟨rfl, by rw [Braces.split?, hafter, Option.map_none]⟩
  | some rest =>
    obtain ⟨inside, rfl, -⟩ := Braces.exists_of_after?_eq_some hafter
    refine .inr ⟨inside, rest, rfl, rfl, ?_⟩
    have hjoin : '{' :: (inside ++ '}' :: rest) = ('{' :: inside ++ ['}']) ++ rest := by simp
    rw [Braces.split?, hafter, Option.map_some, hjoin, consumed_append_self, List.cons_append,
      List.drop_succ_cons, List.drop_zero, List.dropLast_concat]

/-- A brace that nothing closes is a fault where one has to end. -/
theorem braceEnd_of_none (fault : Fault) (h : '{' :: cs <:+ text)
    (hafter : Braces.after? ('{' :: cs) = none) :
    braceEnd fault text (offsetOf text ('{' :: cs)) = refuse fault (offsetOf text ('{' :: cs)) := by
  rw [braceEnd, braceEnd?_offsetOf h, hafter]
  rfl

/-- A brace expression that has to end ends where the scan does. -/
theorem braceEnd_of_some (fault : Fault) (h : '{' :: cs <:+ text)
    (hafter : Braces.after? ('{' :: cs) = some rest) :
    braceEnd fault text (offsetOf text ('{' :: cs)) = .ok (offsetOf text rest) := by
  rw [braceEnd, braceEnd?_offsetOf h, hafter]
  rfl

/-- The inside of a brace expression is cut out between its braces. -/
theorem slice_inside {inside : List Char} (h : '{' :: (inside ++ '}' :: rest) <:+ text) :
    slice text (offsetOf text ('{' :: (inside ++ '}' :: rest)) + 1) (offsetOf text rest - 1) =
      .ok inside := by
  have hinside := (List.suffix_cons _ _).trans h
  have hclosing := (List.suffix_append inside ('}' :: rest)).trans hinside
  rw [← offsetOf_ascii h (by decide), offsetOf_ascii hclosing (by decide), Nat.add_sub_cancel,
    slice_offsetOf (List.suffix_append inside _) hinside, consumed_append_self]

/-! ## Classes of characters -/

/-- A class is one of bytes if all characters that are not ASCII are in it, or none of them. -/
theorem isByteClass_of_eq {isMember : Char → Bool} (answer : Bool)
    (h : ∀ c : Char, 128 ≤ c.toNat → isMember c = answer) : IsByteClass isMember :=
  fun a b ha hb => (h a ha).trans (h b hb).symm

theorem isByteClass_isTagBlank : IsByteClass isTagBlank := by
  refine isByteClass_of_eq false fun c hc => Bool.eq_false_iff.mpr fun h => ?_
  simp only [isTagBlank, Bool.or_eq_true, beq_iff_eq] at h
  rcases h with (((rfl | rfl) | rfl) | rfl) | rfl <;> exact absurd hc (by decide)

/-- Letters and digits are ASCII. -/
theorem not_isAlphanum_of_le (hc : 128 ≤ c.toNat) : c.isAlphanum = false := by
  have hout (last : Char) (hlast : last.toNat < 128) : ¬ c.val ≤ last.val := by
    intro hle
    have : c.toNat ≤ last.toNat := UInt32.le_iff_toNat_le.mp hle
    omega
  delta Char.isAlphanum Char.isAlpha Char.isUpper Char.isLower Char.isDigit
  simp only [hout 'Z' (by decide), hout 'z' (by decide), hout '9' (by decide), and_false,
    decide_false, Bool.and_false, Bool.or_self]

theorem isByteClass_isAlpha : IsByteClass Char.isAlpha :=
  isByteClass_of_eq false fun _ hc => (Bool.or_eq_false_iff.mp (not_isAlphanum_of_le hc)).1

theorem isByteClass_isTagNameChar : IsByteClass isTagNameChar := by
  refine isByteClass_of_eq false fun c hc => Bool.eq_false_iff.mpr fun h => ?_
  simp only [isTagNameChar, not_isAlphanum_of_le hc, Bool.or_eq_true, beq_iff_eq,
    Bool.false_eq_true, false_or] at h
  rcases h with ((rfl | rfl) | rfl) | rfl <;> exact absurd hc (by decide)

/-- All characters that are not ASCII may stand in the name of an attribute. -/
theorem isByteClass_isAttributeNameChar : IsByteClass isAttributeNameChar := by
  refine isByteClass_of_eq true fun c hc => ?_
  have hblank := isByteClass_isTagBlank c 'é' hc (by decide)
  have hne (a : Char) (ha : a.toNat < 128) : (c == a) = false := by
    rw [beq_eq_false_iff_ne]
    rintro rfl
    omega
  rw [isAttributeNameChar, hblank]
  simp (disch := decide) only [hne]
  rfl

/-! ## Values -/

/-- A quoted value ends where the search for its quote does. -/
theorem run_quoteTurn {quote : Char} (opened : Nat) (hquote : quote = '"' ∨ quote = '\'')
    (h : cs <:+ text) :
    run (byteLength text) (quoteTurn quote text) (fun _ _ => refuse .unterminatedValue opened)
        (offsetOf text cs) () =
      match seekQuote quote opened cs (offsetOf text cs) with
      | .error fault => .error (.fault fault)
      | .ok closing => .ok (offsetOf text closing) := by
  have hascii : quote.toNat < 128 := by rcases hquote with rfl | rfl <;> decide
  generalize hhere : offsetOf text cs = here
  fun_induction seekQuote quote opened cs here with
  | case1 here =>
    obtain rfl : byteLength text = here := hhere
    exact run_atEnd
  | case2 here rest =>
    rw [← hhere]
    refine run_done (offsetOf_lt h) ?_
    rw [quoteTurn, if_pos ((byteAt?_first h hascii).mpr rfl)]
  | case3 here rest hne hafter =>
    rw [← hhere]
    refine run_error (offsetOf_lt h) ?_
    rw [quoteTurn, if_neg (by rwa [byteAt?_first h hascii]),
      if_pos ((byteAt?_first h (by decide)).mpr rfl), braceEnd_of_none _ h hafter]
    rfl
  | case4 here rest after hne hafter ih =>
    have hsuffix := suffix_of_scan hafter
    -- a brace expression inside the value is passed over in one turn
    have hturn : quoteTurn quote text (offsetOf text ('{' :: rest)) () =
        .ok (.next (offsetOf text after) ()) := by
      rw [quoteTurn, if_neg (by rwa [byteAt?_first h hascii]),
        if_pos ((byteAt?_first h (by decide)).mpr rfl), braceEnd_of_some _ h hafter]
      rfl
    rw [← hhere, run_next (offsetOf_lt h) hturn
      (offsetOf_lt_of_length hsuffix (Braces.length_lt_of_after? hafter) h)]
    rw [← hhere, ← offsetOf_suffix hsuffix h] at ih
    rw [← offsetOf_suffix hsuffix h]
    exact ih (hsuffix.trans h) rfl
  | case5 here c rest hne hbrace ih =>
    -- the bytes of any other character are passed over, one in each turn
    have hrest := (List.suffix_cons c rest).trans h
    rw [← hhere, ← offsetOf_cons h] at ih
    rw [← hhere, ← offsetOf_cons h, ← ih hrest rfl]
    refine run_ahead (offsetOf_le (List.suffix_cons c rest) h) (offsetOf_le_byteLength text rest)
      fun k hfirst hlast => ?_
    rw [quoteTurn, if_neg (byteAt?_ne hascii hne h hfirst hlast),
      if_neg (byteAt?_ne (by decide) hbrace h hfirst hlast)]

/-- A quoted value is the same, read byte by byte. -/
theorem quotedValue_eq (raw : List Char) : quotedValue raw = .ok (Markup.quotedValue raw) := by
  rcases raw with _ | ⟨c, cs⟩
  · rfl
  · by_cases hc : c = '{'
    · subst hc
      have hraw := List.suffix_refl ('{' :: cs)
      -- a value that starts with a brace is an expression if the brace expression is all of it
      have hend := braceEnd?_offsetOf hraw
      rw [offsetOf_self] at hend
      rw [quotedValue, List.head?_cons, if_pos rfl, hend, Markup.quotedValue]
      rcases split?_cases cs with ⟨hafter, hsplit⟩ | ⟨inside, rest, rfl, hafter, hsplit⟩
      · rw [hafter, hsplit]
        rfl
      · rw [hafter, hsplit]
        cases rest with
        | nil =>
          have hinside := slice_inside hraw
          rw [offsetOf_self, offsetOf_nil, Nat.zero_add] at hinside
          simp only [Option.map_some, offsetOf_nil, if_true, hinside, bind, Except.bind, pure,
            Except.pure]
        | cons d rest =>
          -- something is behind the brace expression
          have hne : offsetOf ('{' :: (inside ++ '}' :: d :: rest)) (d :: rest) ≠
              byteLength ('{' :: (inside ++ '}' :: d :: rest)) :=
            Nat.ne_of_lt (offsetOf_lt (suffix_of_scan hafter))
          simp only [Option.map_some, Option.some_inj, hne, if_false, bind, Except.bind, pure,
            Except.pure]
    · have hhead : ¬ (c :: cs).head? = some '{' := by simpa using hc
      rw [quotedValue, if_neg hhead, Markup.quotedValue]
      · rfl
      · rintro tail heq
        exact hc (List.cons.inj heq).1

/-- A byte of a character is an ASCII character exactly if the character is. -/
theorem byteAt?_eq_some_iff {a : Char} {k : Nat} (ha : a.toNat < 128) (h : c :: rest <:+ text)
    (hfirst : offsetOf text (c :: rest) ≤ k) (hlast : k < offsetOf text rest) :
    byteAt? text k = some a ↔ c = a := by
  constructor
  · exact fun hbyte => Decidable.byContradiction fun hne => byteAt?_ne ha hne h hfirst hlast hbyte
  · rintro rfl
    rw [offsetOf_ascii h ha] at hlast
    obtain rfl : k = offsetOf text (c :: rest) := by omega
    exact (byteAt?_first h ha).mpr rfl

/-- A bare value ends at white space and at the end of a tag. -/
theorem endsBareValue_cons_iff :
    endsBareValue (c :: rest) = true ↔
      isTagBlank c = true ∨ c = '>' ∨ c = '/' ∧ rest.head? = some '>' := by
  unfold endsBareValue
  split
  · simp_all
  · simp_all
  · simp_all
  · rename_i hend hslash heq
    obtain ⟨rfl, rfl⟩ := List.cons.inj heq
    constructor
    · exact .inl
    · rintro (hblank | rfl | ⟨rfl, hhead⟩)
      · exact hblank
      · exact (hend rfl).elim
      · obtain ⟨tail, rfl⟩ := List.head?_eq_some_iff.mp hhead
        exact (hslash tail rfl rfl).elim

/-- A bare value goes on at each byte of a character at which it does not end. -/
theorem inBareValue_eq {k : Nat} (h : c :: rest <:+ text) (hfirst : offsetOf text (c :: rest) ≤ k)
    (hlast : k < offsetOf text rest) : inBareValue text k = !endsBareValue (c :: rest) := by
  -- a slash takes one byte, so that the next one is that of the next character
  have hslash : byteAt? text k = some '/' ∧ byteAt? text (k + 1) = some '>' ↔
      c = '/' ∧ rest.head? = some '>' := by
    rw [byteAt?_eq_some_iff (by decide) h hfirst hlast]
    refine and_congr_right ?_
    rintro rfl
    rw [offsetOf_ascii h (by decide)] at hlast
    obtain rfl : k = offsetOf text ('/' :: rest) := by omega
    exact byteAt?_second h (by decide) (by decide)
  rw [inBareValue, Bool.not_inj_iff, Bool.eq_iff_iff, endsBareValue_cons_iff]
  simp only [Bool.or_eq_true, Bool.and_eq_true, beq_iff_eq, hslash,
    any_byteAt? isByteClass_isTagBlank h hfirst hlast, byteAt?_eq_some_iff (a := '>') (by decide) h
      hfirst hlast, or_assoc]

/-- The byte at the start of a text that is not empty. -/
theorem exists_byteAt? (h : c :: cs <:+ text) :
    ∃ d, byteAt? text (offsetOf text (c :: cs)) = some d ∧ ∀ a : Char, a.toNat < 128 →
      (d = a ↔ c = a) := by
  obtain ⟨d, hd⟩ := Option.isSome_iff_exists.mp (byteAt?_isSome (offsetOf_lt h))
  refine ⟨d, hd, fun a ha => ?_⟩
  rw [← byteAt?_first h ha, hd, Option.some_inj]

/-- A value between braces is read at its offset as it is read from the characters. -/
theorem readValue_braced (h : '{' :: cs <:+ text) :
    readValue text (offsetOf text ('{' :: cs)) =
      lift text (Markup.readValue ('{' :: cs) (offsetOf text ('{' :: cs))) := by
  have hbyte := (byteAt?_first (a := '{') h (by decide)).mpr rfl
  rw [readValue, hbyte, Markup.readValue]
  rcases split?_cases cs with ⟨hafter, hsplit⟩ | ⟨inside, rest, rfl, hafter, hsplit⟩
  · simp only [hsplit, braceEnd_of_none _ h hafter, if_true]
    rfl
  · simp only [hsplit, braceEnd_of_some _ h hafter, if_true, bind, Except.bind, slice_inside h]
    rfl

/-- A quoted value is read at its offset as it is read from the characters. -/
theorem readValue_quoted {quote : Char} (hquote : quote = '"' ∨ quote = '\'')
    (h : quote :: cs <:+ text) :
    readValue text (offsetOf text (quote :: cs)) =
      lift text (Markup.readValue (quote :: cs) (offsetOf text (quote :: cs))) := by
  have hcs := (List.suffix_cons quote cs).trans h
  have hascii : quote.toNat < 128 := by rcases hquote with rfl | rfl <;> decide
  have hbrace : ¬ quote = '{' := by rcases hquote with rfl | rfl <;> decide
  have hbyte := (byteAt?_first h hascii).mpr rfl
  have hrun := run_quoteTurn (offsetOf text (quote :: cs)) hquote hcs
  rw [offsetOf_ascii h hascii] at hrun
  simp only [readValue, hbyte, Markup.readValue, hbrace, hquote, if_false, if_true, hrun]
  cases hseek :
    seekQuote quote (offsetOf text (quote :: cs)) cs (offsetOf text (quote :: cs) + 1) with
  | error fault => rfl
  | ok closing =>
    -- the value ends before a quote, which is one byte
    obtain ⟨-, rest, rfl, -⟩ := exists_of_seekQuote hseek
    have hclosing := suffix_of_seekQuote hseek
    rw [← offsetOf_ascii h hascii]
    simp only [slice_offsetOf hclosing hcs, quotedValue_eq,
      ← offsetOf_ascii (hclosing.trans hcs) hascii, bind, Except.bind]
    rfl

/-- A bare value is read at its offset as it is read from the characters. -/
theorem readValue_bare (hbrace : c ≠ '{') (hquote : ¬ (c = '"' ∨ c = '\'')) (h : c :: cs <:+ text) :
    readValue text (offsetOf text (c :: cs)) =
      lift text (Markup.readValue (c :: cs) (offsetOf text (c :: cs))) := by
  obtain ⟨d, hbyte, hd⟩ := exists_byteAt? h
  have hbraced : d ≠ '{' := fun heq => hbrace ((hd '{' (by decide)).mp heq)
  have hquoted : ¬ (d = '"' ∨ d = '\'') := by rwa [hd '"' (by decide), hd '\'' (by decide)]
  have hstop : passWhile (inBareValue text) text (offsetOf text (c :: cs)) =
      .ok (offsetOf text (afterBareValue (c :: cs))) :=
    passWhile_offsetOf h fun _ _ _ => inBareValue_eq
  simp only [readValue, hbyte, Markup.readValue, hbraced, hquoted, hquote, if_false, hstop,
    slice_offsetOf (afterBareValue_suffix (c :: cs)) h, bind, Except.bind]
  rfl

/-- A value is read at its offset as it is read from the characters. -/
theorem readValue_offsetOf (h : cs <:+ text) :
    readValue text (offsetOf text cs) = lift text (Markup.readValue cs (offsetOf text cs)) := by
  cases cs with
  | nil =>
    rw [readValue, offsetOf_nil, byteAt?_eq_none (Nat.le_refl _)]
    rfl
  | cons c cs =>
    by_cases hbrace : c = '{'
    · subst hbrace
      exact readValue_braced h
    · by_cases hquote : c = '"' ∨ c = '\''
      · exact readValue_quoted hquote h
      · exact readValue_bare hbrace hquote h

/-- What follows the name of an attribute is read at its offset as it is read from the
    characters. -/
theorem readAssignment_offsetOf (h : cs <:+ text) :
    readAssignment text (offsetOf text cs) =
      lift text (Markup.readAssignment cs (offsetOf text cs)) := by
  have hblank : cs.dropWhile isTagBlank <:+ cs := List.dropWhile_suffix isTagBlank
  have hsign := hblank.trans h
  have hbyte := byteAt?_offsetOf (a := '=') (by decide) hsign
  unfold Markup.readAssignment
  split
  · rename_i assigned hassigned
    rw [hassigned] at hsign hbyte hblank
    -- the sign takes one byte, and white space is passed over behind it
    have hrest := (List.suffix_cons _ _).trans hsign
    have hvalue : assigned.dropWhile isTagBlank <:+ assigned := List.dropWhile_suffix isTagBlank
    have hbehind := (hvalue.trans (List.suffix_cons _ _)).trans hblank
    simp only [readAssignment, passClass_offsetOf isByteClass_isTagBlank h, hassigned,
      if_pos (hbyte.mpr rfl), ← offsetOf_ascii hsign (by decide),
      passClass_offsetOf isByteClass_isTagBlank hrest, bind, Except.bind]
    rw [readValue_offsetOf (hvalue.trans hrest), offsetOf_suffix hbehind h]
  · rename_i hnot
    -- no sign is here, so that no value is assigned
    have hsign : ¬ byteAt? text (offsetOf text (cs.dropWhile isTagBlank)) = some '=' := by
      rw [hbyte, List.head?_eq_some_iff]
      rintro ⟨assigned, hassigned⟩
      exact hnot assigned hassigned
    simp only [readAssignment, passClass_offsetOf isByteClass_isTagBlank h, if_neg hsign, bind,
      Except.bind]
    rfl

theorem isEmpty_takeWhile (isMember : Char → Bool) (cs : List Char) :
    (cs.takeWhile isMember).isEmpty = !cs.head?.any isMember := by
  cases cs with
  | nil => rfl
  | cons c cs => cases hc : isMember c <;> simp [hc]

/-- What is left behind the characters of a class. -/
theorem drop_length_takeWhile (isMember : Char → Bool) (cs : List Char) :
    cs.drop (cs.takeWhile isMember).length = cs.dropWhile isMember := by
  have hdrop := @List.drop_left _ (cs.takeWhile isMember) (cs.dropWhile isMember)
  rwa [List.takeWhile_append_dropWhile] at hdrop

theorem consumed_dropWhile (isMember : Char → Bool) (cs : List Char) :
    consumed cs (cs.dropWhile isMember) = cs.takeWhile isMember := by
  have hread := consumed_append_self (cs.takeWhile isMember) (cs.dropWhile isMember)
  rwa [List.takeWhile_append_dropWhile] at hread

/-- An attribute that is a brace expression is read as it is read from the characters. -/
theorem readAttribute_braced (tag : String) (h : '{' :: cs <:+ text) :
    readAttribute tag text (offsetOf text ('{' :: cs)) '{' =
      lift text (Markup.readAttribute tag ('{' :: cs) (offsetOf text ('{' :: cs))) := by
  rw [readAttribute, if_pos rfl, Markup.readAttribute]
  rcases split?_cases cs with ⟨hafter, hsplit⟩ | ⟨inside, rest, rfl, hafter, hsplit⟩
  · simp only [hsplit, braceEnd_of_none _ h hafter]
    rfl
  · simp only [hsplit, braceEnd_of_some _ h hafter, bind, Except.bind, slice_inside h,
      ← offsetOf_suffix (suffix_of_scan hafter) h]
    rfl

/-- An attribute is read at its offset as it is read from the characters. -/
theorem readAttribute_offsetOf (tag : String) (h : cs <:+ text)
    (hbyte : byteAt? text (offsetOf text cs) = some c) :
    readAttribute tag text (offsetOf text cs) c =
      lift text (Markup.readAttribute tag cs (offsetOf text cs)) := by
  have hbrace : c = '{' ↔ cs.head? = some '{' := by
    rw [← byteAt?_offsetOf (by decide) h, hbyte, Option.some_inj]
  by_cases hc : c = '{'
  · -- the byte is that of a brace exactly if the text starts with one
    obtain ⟨body, rfl⟩ := List.head?_eq_some_iff.mp (hbrace.mp hc)
    subst hc
    exact readAttribute_braced tag h
  · -- the byte tells whether a name starts here
    have hname : isAttributeNameChar c = cs.head?.any isAttributeNameChar := by
      rw [← any_byteAt?_offsetOf isByteClass_isAttributeNameChar h, hbyte, Option.any_some]
    have hsuffix : cs.dropWhile isAttributeNameChar <:+ cs := List.dropWhile_suffix _
    have hstop := offsetOf_suffix hsuffix h
    rw [readAttribute, if_neg hc, Markup.readAttribute]
    · simp only [isEmpty_takeWhile, ← hname, drop_length_takeWhile]
      cases isAttributeNameChar c with
      | false => rfl
      | true =>
        rw [← consumed_dropWhile, ← hstop]
        simp only [passClass_offsetOf isByteClass_isAttributeNameChar h, slice_offsetOf hsuffix h,
          readAssignment_offsetOf (hsuffix.trans h), bind, Except.bind, if_true,
          Bool.not_true, if_false, Bool.false_eq_true]
        cases hvalue : Markup.readAssignment (cs.dropWhile isAttributeNameChar)
            (offsetOf text (cs.dropWhile isAttributeNameChar)) with
        | error fault => rfl
        | ok read =>
          obtain ⟨value, rest⟩ := read
          simp only [lift]
          rw [← offsetOf_suffix ((suffix_of_readAssignment hvalue).trans hsuffix) h]
          rfl
    · rintro body rfl
      exact hc (hbrace.mpr rfl)

/-! ## Tags -/

/-- An attribute stands between what it is read from and what is left. -/
theorem span_of_readAttribute {tag : String} {attr : Attribute} (h : cs <:+ text)
    (hread : Markup.readAttribute tag cs (offsetOf text cs) = .ok (attr, rest)) :
    attr.span = ⟨offsetOf text cs, offsetOf text rest⟩ := by
  rw [offsetOf_suffix (suffix_of_readAttribute hread) h]
  unfold Markup.readAttribute at hread
  split at hread
  · split at hread
    · cases hread
    · cases hread
      rfl
  · dsimp only at hread
    split at hread
    · cases hread
    · obtain ⟨⟨value, left⟩, -, hread⟩ := exists_of_bind_eq_ok hread
      cases hread
      rfl

/-- A turn of the loop over the attributes, by what stands behind the white space. -/
theorem attributeTurn_offsetOf (tag : String) (opened : Nat) (attributes : List Attribute)
    (h : cs <:+ text) :
    attributeTurn tag opened text (offsetOf text cs) attributes =
      match cs.dropWhile isTagBlank with
      | [] => refuse (.unterminatedTag tag) opened
      | '>' :: rest => .ok (.done ⟨attributes, false, offsetOf text rest⟩)
      | '/' :: '>' :: rest => .ok (.done ⟨attributes, true, offsetOf text rest⟩)
      | next =>
        match Markup.readAttribute tag next (offsetOf text next) with
        | .error fault => .error (.fault fault)
        | .ok (attr, rest) => .ok (.next (offsetOf text rest) (attributes ++ [attr])) := by
  have hnext := (List.dropWhile_suffix isTagBlank (l := cs)).trans h
  simp only [attributeTurn, passClass_offsetOf isByteClass_isTagBlank h, bind, Except.bind]
  generalize cs.dropWhile isTagBlank = next at hnext
  symm
  split
  · rw [offsetOf_nil, byteAt?_eq_none (Nat.le_refl _)]
  · simp only [(byteAt?_first hnext (by decide)).mpr rfl, if_true,
      ← offsetOf_ascii hnext (by decide)]
    rfl
  · have hclosing := (List.suffix_cons _ _).trans hnext
    have hsecond := (byteAt?_second (a := '>') hnext (by decide) (by decide)).mpr rfl
    simp only [(byteAt?_first hnext (by decide)).mpr rfl, hsecond, and_self, if_true]
    rw [offsetOf_ascii hclosing (by decide), offsetOf_ascii hnext (by decide)]
    rfl
  · rename_i hne hgt hslash
    obtain ⟨c, rest, rfl⟩ := List.exists_cons_of_ne_nil hne
    obtain ⟨d, hbyte, hd⟩ := exists_byteAt? hnext
    -- neither end of a tag is here, so that an attribute is read
    have hend : ¬ d = '>' := fun heq => hgt rest (by rw [(hd '>' (by decide)).mp heq])
    have hself : ¬ (d = '/' ∧ byteAt? text (offsetOf text (c :: rest) + 1) = some '>') := by
      rintro ⟨heq, hsecond⟩
      obtain rfl := (hd '/' (by decide)).mp heq
      rw [byteAt?_second hnext (by decide) (by decide), List.head?_eq_some_iff] at hsecond
      obtain ⟨tail, rfl⟩ := hsecond
      exact hslash tail rfl
    simp only [hbyte, hend, hself, if_false, readAttribute_offsetOf tag hnext hbyte]
    cases Markup.readAttribute tag (c :: rest) (offsetOf text (c :: rest)) <;> rfl

/-- A turn at an attribute. -/
theorem attributeTurn_next (tag : String) (opened : Nat) (attributes : List Attribute)
    (h : cs <:+ text)
    (hne : cs.dropWhile isTagBlank ≠ []) (hgt : ∀ rest, cs.dropWhile isTagBlank ≠ '>' :: rest)
    (hslash : ∀ rest, cs.dropWhile isTagBlank ≠ '/' :: '>' :: rest) :
    attributeTurn tag opened text (offsetOf text cs) attributes =
      match Markup.readAttribute tag (cs.dropWhile isTagBlank)
          (offsetOf text (cs.dropWhile isTagBlank)) with
      | .error fault => .error (.fault fault)
      | .ok (attr, rest) => .ok (.next (offsetOf text rest) (attributes ++ [attr])) := by
  rw [attributeTurn_offsetOf tag opened attributes h]
  split
  · exact absurd (by assumption) hne
  · exact absurd (by assumption) (hgt _)
  · exact absurd (by assumption) (hslash _)
  · rfl

/-- A place is before the end of the text if something is left behind its white space. -/
theorem offsetOf_lt_of_dropWhile {isMember : Char → Bool} (h : cs <:+ text)
    (hdrop : cs.dropWhile isMember = c :: rest) : offsetOf text cs < byteLength text := by
  have hsuffix : c :: rest <:+ cs := hdrop ▸ List.dropWhile_suffix isMember
  exact Nat.lt_of_le_of_lt (offsetOf_le hsuffix h) (offsetOf_lt (hsuffix.trans h))

/-- The loop over the attributes of a tag adds what is read of them. -/
theorem run_attributeTurn (tag : String) (opened : Nat) (attributes : List Attribute)
    (h : cs <:+ text) :
    run (byteLength text) (attributeTurn tag opened text) (fun _ _ =>
      refuse (.unterminatedTag tag) opened)
        (offsetOf text cs) attributes =
      match Markup.readAttributes tag opened cs (offsetOf text cs) with
      | .error fault => .error (.fault fault)
      | .ok (others, tagEnd) =>
        .ok ⟨attributes ++ others, tagEnd.selfClosing, offsetOf text tagEnd.rest⟩ := by
  generalize hhere : offsetOf text cs = here
  fun_induction Markup.readAttributes tag opened cs here generalizing attributes with
  | case1 cs here hend =>
    have hturn := attributeTurn_offsetOf tag opened attributes h
    rw [hend, hhere] at hturn
    cases cs with
    | nil =>
      obtain rfl : byteLength text = here := hhere
      exact run_atEnd
    | cons c cs => exact run_error (hhere ▸ offsetOf_lt h) hturn
  | case2 cs here rest hend =>
    have hturn := attributeTurn_offsetOf tag opened attributes h
    rw [hend, hhere] at hturn
    rw [run_done (hhere ▸ offsetOf_lt_of_dropWhile h hend) hturn]
    simp only [List.append_nil]
  | case3 cs here rest hend =>
    have hturn := attributeTurn_offsetOf tag opened attributes h
    rw [hend, hhere] at hturn
    rw [run_done (hhere ▸ offsetOf_lt_of_dropWhile h hend) hturn]
    simp only [List.append_nil]
  | case4 cs here fault hne hgt hslash hattr =>
    obtain ⟨c, rest, hnext⟩ := List.exists_cons_of_ne_nil hne
    have hturn := attributeTurn_next tag opened attributes h hne hgt hslash
    rw [offsetOf_suffix (List.dropWhile_suffix isTagBlank) h, hhere, hattr] at hturn
    exact run_error (hhere ▸ offsetOf_lt_of_dropWhile h hnext) hturn
  | case5 cs here attr rest hne hgt hslash hattr ih =>
    obtain ⟨c, tail, hnext⟩ := List.exists_cons_of_ne_nil hne
    have hblank : cs.dropWhile isTagBlank <:+ cs := List.dropWhile_suffix isTagBlank
    have hrest := (suffix_of_readAttribute hattr).trans hblank
    have hshorter := Nat.lt_of_lt_of_le (length_lt_of_readAttribute hattr) hblank.length_le
    -- each turn gets ahead
    have hahead := offsetOf_lt_of_length hrest hshorter h
    have hturn := attributeTurn_next tag opened attributes h hne hgt hslash
    rw [← hhere, ← offsetOf_suffix hblank h] at hattr
    rw [hhere, hattr] at hturn
    -- the loop goes on where the attribute stops
    have hstop : offsetOf text rest = attr.span.stop := by
      rw [span_of_readAttribute (hblank.trans h) hattr]
    rw [run_next (hhere ▸ offsetOf_lt_of_dropWhile h hnext) hturn (hhere ▸ hahead), hstop,
      ih _ (hrest.trans h) hstop]
    cases Markup.readAttributes tag opened rest attr.span.stop with
    | error fault => rfl
    | ok read =>
      simp only [bind, Except.bind, pure, Except.pure, List.append_assoc, List.singleton_append]

/-- The attributes of a tag are read behind its name, all of which are ASCII characters. -/
theorem readTag_eq (h : '<' :: cs <:+ text) :
    Markup.readTag ('<' :: cs) (offsetOf text ('<' :: cs)) =
      (Markup.readAttributes (String.ofList (cs.takeWhile isTagNameChar))
        (offsetOf text ('<' :: cs))
        (cs.dropWhile isTagNameChar) (offsetOf text (cs.dropWhile isTagNameChar))).map
          fun read => (cs.takeWhile isTagNameChar, read) := by
  -- each character of the name takes one byte
  have hoffset : offsetOf text (cs.dropWhile isTagNameChar) =
      offsetOf text ('<' :: cs) + 1 + (cs.takeWhile isTagNameChar).length := by
    rw [offsetOf_suffix (List.dropWhile_suffix isTagNameChar) ((List.suffix_cons _ _).trans h),
      offsetOf_ascii h (by decide), consumed_dropWhile,
      byteLength_of_isTagNameChar List.all_takeWhile]
  simp only [Markup.readTag, List.drop_succ_cons, List.drop_zero, Nat.add_comm 1 (List.length _),
    drop_length_takeWhile, ← hoffset]
  rfl

/-- An opening tag is read at its offset as it is read from the characters. -/
theorem readTag_offsetOf (h : '<' :: cs <:+ text) :
    readTag text (offsetOf text ('<' :: cs)) =
      match Markup.readTag ('<' :: cs) (offsetOf text ('<' :: cs)) with
      | .error fault => .error (.fault fault)
      | .ok (name, attributes, tagEnd) =>
        .ok (name, ⟨attributes, tagEnd.selfClosing, offsetOf text tagEnd.rest⟩) := by
  have hcs := (List.suffix_cons _ _).trans h
  have hname : cs.dropWhile isTagNameChar <:+ cs := List.dropWhile_suffix isTagNameChar
  have hrun :=
    run_attributeTurn (String.ofList (cs.takeWhile isTagNameChar)) (offsetOf text ('<' :: cs)) []
    (hname.trans hcs)
  simp only [readTag, ← offsetOf_ascii h (by decide),
    passClass_offsetOf isByteClass_isTagNameChar hcs, slice_offsetOf hname hcs, consumed_dropWhile,
    bind, Except.bind, readAttributes, hrun, readTag_eq h]
  cases Markup.readAttributes (String.ofList (cs.takeWhile isTagNameChar))
    (offsetOf text ('<' :: cs))
    (cs.dropWhile isTagNameChar) (offsetOf text (cs.dropWhile isTagNameChar)) <;> rfl

end SvelteStories.Markup.Bytewise
