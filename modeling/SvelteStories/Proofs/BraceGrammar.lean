import SvelteStories.Markup.Braces

/-!
# The grammar of brace expressions

What the brace scanner reads, as a grammar.  Text stands in a *place*: between braces, in a string,
in a template literal, in an interpolation of one, or in a comment.  A place has a closer, openers
that lead to other places, and perhaps escapes.  Every other character stands for itself.

The grammar has one parameter, the place that an interpolation is read as.  In JavaScript that is
code again, with its own strings and template literals.  The scanner only counts the
interpolations that are open: to it, an interpolation is the place `interpolation`, in which braces
without a dollar sign, quotes and backquotes stand for themselves.

## Key results

- `scan_eq_some_iff`: the scanner answers what follows the places that are open in its mode
- `after?_eq_some_iff`: it finds the end of a brace expression exactly where the grammar does that
  reads an interpolation flatly
- `exists_of_after?_eq_some`: what follows a brace expression does not matter
- `after?_append_eq_some_iff`: which brace expressions it reads to their end, and that the two
  grammars agree where no template literal is
-/

namespace SvelteStories.Markup.Braces

/-- The kinds of place that text stands in. -/
inductive Place
  | code
  /-- In a string, up to the given quote. -/
  | quoted (quote : Char)
  | template
  /-- In an interpolation of a template literal, for a reader that does not look into it. -/
  | interpolation
  | lineComment
  | blockComment
deriving Repr, DecidableEq

/-- What a mark in the text does: it leaves the place, it enters another one, or it takes the
    character after it out of consideration. -/
inductive Move
  | leave
  | enter (inner : Place)
  | escape
deriving Repr, DecidableEq

namespace Place

/-- The mark that leaves a place. -/
def closer : Place → List Char
  | .code | .interpolation => ['}']
  | .quoted quote => [quote]
  | .template => ['\x60']
  | .lineComment => ['\n']
  | .blockComment => ['*', '/']

/-- The marks that enter another place, with that place. -/
def openers (place interpolated : Place) : List (List Char × Place) :=
  match place with
  | .code => [(['{'], .code), (['"'], .quoted '"'), (['\''], .quoted '\''), (['\x60'], .template),
      (['/', '/'], .lineComment), (['/', '*'], .blockComment)]
  | .template | .interpolation => [(['$', '{'], interpolated)]
  | _ => []

/-- Does a backslash escape a character here?  It does everywhere but in comments. -/
def escapes : Place → Bool
  | .lineComment | .blockComment => false
  | _ => true

/-- The marks of a place, with what they do. -/
def moves (place interpolated : Place) : List (List Char × Move) :=
  (place.closer, .leave) ::
    (place.openers interpolated).map (fun (opener, inner) => (opener, .enter inner)) ++
    if place.escapes then [(['\\'], .escape)] else []

/-- No mark of the place stands here, so that the next character stands for itself. -/
def Plain (place interpolated : Place) (text : List Char) : Prop :=
  ∀ move ∈ place.moves interpolated, ¬ move.1 <+: text

instance (place interpolated : Place) (text : List Char) :
    Decidable (place.Plain interpolated text) :=
  inferInstanceAs (Decidable (∀ move ∈ place.moves interpolated, ¬ move.1 <+: text))

end Place

/-- The text can stand in the place: it is a sequence of plain characters, escapes, and whole pieces
    between an opener and its closer. -/
inductive Spells (interpolated : Place) : (place : Place) → (text : List Char) → Prop
  | nil {place : Place} : Spells interpolated place []
  | plain {place : Place} {c : Char} {text : List Char}
      (hc : place.Plain interpolated (c :: text)) (ht : Spells interpolated place text) :
      Spells interpolated place (c :: text)
  | escape {place : Place} {c : Char} {text : List Char}
      (he : place.escapes = true) (ht : Spells interpolated place text) :
      Spells interpolated place ('\\' :: c :: text)
  | piece {place inner : Place} (opener : List Char) {inside text : List Char}
      (ho : (opener, inner) ∈ place.openers interpolated) (hi : Spells interpolated inner inside)
      (ht : Spells interpolated place text) :
      Spells interpolated place (opener ++ (inside ++ (inner.closer ++ text)))

/-- The text closes the places that are open, the innermost one first, and `rest` follows. -/
def Closes : (stack : List Place) → (text rest : List Char) → Prop
  | [], text, rest => text = rest
  | place :: stack, text, rest => ∃ inside next, Spells .interpolation place inside ∧
      text = inside ++ (place.closer ++ next) ∧ Closes stack next rest

/-- The places that are open in a mode with `depth` braces, the innermost one first. -/
def Mode.stack (depth : Nat) : Mode → List Place
  | .code => List.replicate depth .code
  | .quoted quote => .quoted quote :: List.replicate depth .code
  | .template k => List.replicate k .interpolation ++ .template :: List.replicate depth .code
  | .lineComment => .lineComment :: List.replicate depth .code
  | .blockComment => .blockComment :: List.replicate depth .code

/-- The places that are open after a mark, when it was read in `place` with `stack` open around
    it, are closed by what follows the mark. -/
def Move.Closes (place : Place) (stack : List Place) (text rest : List Char) : Move → Prop
  | .leave => Braces.Closes stack text rest
  | .enter inner => Braces.Closes (inner :: place :: stack) text rest
  | .escape => ∃ c next, text = c :: next ∧ Braces.Closes (place :: stack) next rest

/-! ### Marks -/

section Marks

variable {place : Place} {text text' : List Char} {a b : List Char × Move}

/-- No mark of a place begins with another one.  (The backslash is not a quote.) -/
theorem Place.eq_of_prefix (hq : place ≠ .quoted '\\') : ∀ a ∈ place.moves .interpolation,
    ∀ b ∈ place.moves .interpolation, a.1 <+: b.1 → a = b := by
  cases place with
  | quoted quote => simp_all [moves, closer, openers, escapes, eq_comm]
  | _ => decide

/-- At most one mark stands at the start of a text. -/
theorem Place.eq_of_append_eq (hq : place ≠ .quoted '\\') (ha : a ∈ place.moves .interpolation)
    (hb : b ∈ place.moves .interpolation) (h : a.1 ++ text = b.1 ++ text') : a = b := by
  obtain hp | hp := List.prefix_or_prefix_of_prefix (List.prefix_append a.1 text) ⟨text', h.symm⟩
  · exact Place.eq_of_prefix hq a ha b hb hp
  · exact (Place.eq_of_prefix hq b hb a ha hp).symm

/-- What is plain in front of the end of a place is plain with the closer after it: no mark reaches
    into the closer. -/
theorem Place.Plain.append_closer {c : Char} {inside : List Char}
    (hp : place.Plain .interpolation (c :: inside)) (next : List Char) :
    place.Plain .interpolation (c :: (inside ++ (place.closer ++ next))) := by
  cases inside <;> cases place <;>
    simp only [Plain, moves, closer, openers, escapes, List.map_cons, List.map_nil, if_true,
      List.cons_append, List.nil_append, List.forall_mem_cons, List.cons_prefix_cons] at hp ⊢ <;>
    grind

end Marks

/-! ### Reading one mark -/

section Closes

variable {place : Place} {stack : List Place} {c : Char} {text rest : List Char}

theorem not_closes_nil : ¬ Closes (place :: stack) [] rest := by
  rintro ⟨inside, next, -, h, -⟩
  cases place <;> simp [Place.closer] at h

/-- Where a place is open, the text starts with a plain character or with a mark. -/
theorem plain_or_mark_of_closes (h : Closes (place :: stack) text rest) :
    (∃ c next, text = c :: next ∧ place.Plain .interpolation text ∧
      Closes (place :: stack) next rest) ∨
    ∃ a ∈ place.moves .interpolation, ∃ next, text = a.1 ++ next ∧
      a.2.Closes place stack next rest := by
  obtain ⟨inside, next, hs, rfl, hn⟩ := h
  cases hs with
  -- the place is left, goes on with a plain character or an escape, or another one is entered
  | nil => exact .inr ⟨(place.closer, .leave), by simp [Place.moves], next, rfl, hn⟩
  | plain hc ht => exact .inl ⟨_, _, rfl, hc.append_closer next, _, next, ht, rfl, hn⟩
  | escape he ht =>
    exact .inr ⟨(['\\'], .escape),
      by simp [Place.moves, he], _, rfl, _, _, rfl, _, next, ht, rfl, hn⟩
  | @piece _ inner opener inside text ho hi ht =>
    exact .inr ⟨(opener, .enter inner), by simp [Place.moves, ho], _, List.append_assoc .., inside,
      text ++ (place.closer ++ next), hi, by simp only [List.append_assoc], text, next, ht, rfl, hn⟩

/-- A mark at the start of the text does what it does. -/
theorem closes_mark_append (mark : List Char) (move : Move) (hq : place ≠ .quoted '\\')
    (hm : (mark, move) ∈ place.moves .interpolation) :
    Closes (place :: stack) (mark ++ text) rest ↔ move.Closes place stack text rest := by
  constructor
  · intro h
    obtain ⟨c, next, -, hp, -⟩ | ⟨a, ha, next, he, hg⟩ := plain_or_mark_of_closes h
    · exact absurd (List.prefix_append mark text) (hp _ hm)
    · -- no two marks of a place start with each other
      obtain rfl := Place.eq_of_append_eq hq hm ha he
      rwa [List.append_cancel_left he]
  · intro hg
    simp only [Place.moves, List.mem_append, List.mem_cons, List.mem_map, Prod.mk.injEq,
      List.mem_ite_nil_right, List.not_mem_nil, or_false] at hm
    obtain (⟨rfl, rfl⟩ | ⟨⟨opener, inner⟩, ho, rfl, rfl⟩) | ⟨he, rfl, rfl⟩ := hm
    · exact ⟨[], text, .nil, rfl, hg⟩
    · obtain ⟨inside, _, hi, rfl, after, next, hs, rfl, hn⟩ := hg
      exact ⟨_, next, .piece opener ho hi hs, by simp only [List.append_assoc], hn⟩
    · obtain ⟨c, _, rfl, inside, next, hs, rfl, hn⟩ := hg
      exact ⟨_, next, .escape he hs, rfl, hn⟩

/-- An escaped character does not count. -/
theorem closes_escape_cons (hq : place ≠ .quoted '\\') (he : place.escapes = true) :
    Closes (place :: stack) ('\\' :: c :: text) rest ↔ Closes (place :: stack) text rest := by
  refine (closes_mark_append ['\\'] .escape hq (by simp [Place.moves, he])).trans ?_
  exact ⟨fun ⟨_, _, h, hn⟩ => by cases h; exact hn, fun h => ⟨c, text, rfl, h⟩⟩

/-- A character at which no mark stands does not count.  Neither does a backslash at the end of the
    text, as nothing closes a place from there on. -/
theorem closes_cons (hc : ∀ a ∈ place.moves .interpolation, ∀ next, c :: text = a.1 ++ next →
      a = (['\\'], .escape) ∧ text = []) :
    Closes (place :: stack) (c :: text) rest ↔ Closes (place :: stack) text rest := by
  constructor
  · intro h
    obtain ⟨c, next, he, -, hn⟩ | ⟨a, ha, next, he, hg⟩ := plain_or_mark_of_closes h
    · cases he; exact hn
    · -- a backslash at the end would have to escape something
      obtain ⟨rfl, rfl⟩ := hc a ha next he
      obtain ⟨c, next, rfl, -⟩ := hg
      exact nomatch he
  · rintro ⟨inside, next, hs, rfl, hn⟩
    refine ⟨c :: inside, next, .plain (fun a ha hp => ?_) hs, rfl, hn⟩
    obtain ⟨after, ht⟩ := hp.trans (List.prefix_append (c :: inside) (place.closer ++ next))
    exact absurd (hc a ha after ht.symm).2 (by cases place <;> simp [Place.closer])

end Closes

/-! ### The scanner -/

section Scan

variable {text rest : List Char}

/-- A backslash that escapes nothing is the last character. -/
theorem eq_nil_of_lone {c : Char} (h : ∀ next text', c = '\\' → text = next :: text' → False) :
    c = '\\' → text = [] := by
  intro hc
  cases text with
  | nil => rfl
  | cons next text' => exact (h next text' hc rfl).elim

/-- The scanner answers what follows the places that are open.  Each step of it reads one mark of
    the innermost place, or one character that does not count. -/
theorem scan_eq_some_iff {mode : Mode} {depth : Nat} (hm : mode ≠ .quoted '\\') (hd : 0 < depth) :
    scan text mode depth = some rest ↔ Closes (mode.stack depth) text rest := by
  fun_induction scan text mode depth with
  | case1 mode depth =>
    obtain ⟨depth, rfl⟩ := Nat.exists_eq_add_one.2 hd
    refine iff_of_false (by simp) ?_
    -- at the end of the text no place is closed
    cases mode with
    | template k => cases k <;> exact not_closes_nil
    | _ => exact not_closes_nil
  -- In a comment.
  | case2 c text depth ih =>
    rw [ih (by split <;> simp) hd]
    split
    case isTrue h => subst h; exact (closes_mark_append ['\n'] .leave (by simp) (by decide)).symm
    case isFalse h =>
      refine (closes_cons ?_).symm
      simp [Place.moves, Place.closer, Place.openers, Place.escapes, h]
  | case3 text depth ih =>
    exact (ih (by simp) hd).trans (closes_mark_append ['*', '/'] .leave (by simp) (by decide)).symm
  | case4 c text depth hc ih =>
    refine (ih (by simp) hd).trans (closes_cons ?_).symm
    simpa [Place.moves, Place.closer, Place.openers, Place.escapes] using hc
  -- An escape, in any other mode.
  | case5 c text mode depth hl hb ih =>
    obtain ⟨depth, rfl⟩ := Nat.exists_eq_add_one.2 hd
    refine (ih hm hd).trans (Iff.symm ?_)
    cases mode with
    | code => exact closes_escape_cons (by simp) rfl
    | quoted quote => exact closes_escape_cons (by simpa using hm) rfl
    | template k => cases k <;> exact closes_escape_cons (by simp) rfl
    | lineComment => exact absurd rfl hl
    | blockComment => exact absurd rfl hb
  -- In a string.
  | case6 c text quote depth hc ih =>
    have hq : quote ≠ '\\' := by simpa using hm
    rw [ih (by split <;> simp [hq]) hd]
    split
    case isTrue h =>
      subst h
      exact (closes_mark_append [c] .leave (by simpa using hq)
        (by simp [Place.moves, Place.closer])).symm
    case isFalse h =>
      refine (closes_cons ?_).symm
      simpa [Place.moves, Place.closer, Place.openers, Place.escapes, h] using eq_nil_of_lone hc
  -- In a template literal.
  | case7 text depth ih =>
    exact (ih (by simp) hd).trans (closes_mark_append ['\x60'] .leave (by simp) (by decide)).symm
  | case8 text k depth ih =>
    refine (ih (by simp) hd).trans (Iff.symm ?_)
    cases k <;> exact closes_mark_append ['$', '{'] (.enter .interpolation) (by simp) (by decide)
  | case9 text k depth ih =>
    exact (ih (by simp) hd).trans (closes_mark_append ['}'] .leave (by simp) (by decide)).symm
  | case10 c text k depth hesc hquote hopen hclose ih =>
    refine (ih (by simp) hd).trans (Iff.symm ?_)
    cases k with
    | zero =>
      refine closes_cons ?_
      simpa [Place.moves, Place.closer, Place.openers, Place.escapes] using
        ⟨fun h => hquote h rfl, hopen, eq_nil_of_lone hesc⟩
    | succ k =>
      refine closes_cons ?_
      simpa [Place.moves, Place.closer, Place.openers, Place.escapes] using
        ⟨fun h => hclose k h rfl, hopen, eq_nil_of_lone hesc⟩
  -- In code.
  | case11 text depth ih =>
    obtain ⟨depth, rfl⟩ := Nat.exists_eq_add_one.2 hd
    exact (ih (by simp) hd).trans
      (closes_mark_append ['/', '/'] (.enter .lineComment) (by simp) (by decide)).symm
  | case12 text depth ih =>
    obtain ⟨depth, rfl⟩ := Nat.exists_eq_add_one.2 hd
    exact (ih (by simp) hd).trans
      (closes_mark_append ['/', '*'] (.enter .blockComment) (by simp) (by decide)).symm
  | case13 text depth ih =>
    obtain ⟨depth, rfl⟩ := Nat.exists_eq_add_one.2 hd
    exact (ih (by simp) hd).trans
      (closes_mark_append ['"'] (.enter (.quoted '"')) (by simp) (by decide)).symm
  | case14 text depth ih =>
    obtain ⟨depth, rfl⟩ := Nat.exists_eq_add_one.2 hd
    exact (ih (by simp) hd).trans
      (closes_mark_append ['\''] (.enter (.quoted '\'')) (by simp) (by decide)).symm
  | case15 text depth ih =>
    obtain ⟨depth, rfl⟩ := Nat.exists_eq_add_one.2 hd
    exact (ih (by simp) hd).trans
      (closes_mark_append ['\x60'] (.enter .template) (by simp) (by decide)).symm
  | case16 text depth ih =>
    obtain ⟨depth, rfl⟩ := Nat.exists_eq_add_one.2 hd
    exact (ih (by simp) (Nat.succ_pos _)).trans
      (closes_mark_append ['{'] (.enter .code) (by simp) (by decide)).symm
  -- The brace that closes the expression, and one that closes another brace.
  | case17 text =>
    rw [Option.some_inj]
    exact Iff.symm <| @closes_mark_append .code [] text rest ['}'] .leave (by simp) (by decide)
  | case18 => exact absurd hd (Nat.lt_irrefl 0)
  | case19 text depth ih =>
    refine (ih (by simp) (Nat.succ_pos depth)).trans (Iff.symm ?_)
    exact @closes_mark_append .code (.code :: List.replicate depth .code) text rest ['}'] .leave
      (by simp) (by decide)
  | case20 c text depth hesc hline hblock hdouble hsingle htemplate hopen h₁ h₀ h₂ ih =>
    obtain ⟨depth, rfl⟩ := Nat.exists_eq_add_one.2 hd
    -- no sign of the code is here, so that the character is passed over
    have hclose : c ≠ '}' := by
      cases depth with
      | zero => exact h₁ rfl
      | succ depth => exact h₂ depth rfl
    refine (ih (by simp) hd).trans (closes_cons ?_).symm
    simpa [Place.moves, Place.closer, Place.openers, Place.escapes] using
      ⟨hclose, hopen, hdouble, hsingle, htemplate, hline, hblock, eq_nil_of_lone hesc⟩

/-- Where the scanner finds the end of a brace expression. -/
theorem after?_eq_some_iff : after? ('{' :: text) = some rest ↔
    ∃ inside, Spells .interpolation .code inside ∧ text = inside ++ '}' :: rest := by
  refine (@scan_eq_some_iff text rest .code 1 (by simp) Nat.one_pos).trans ?_
  constructor
  · rintro ⟨inside, _, hs, rfl, rfl⟩
    exact ⟨inside, hs, rfl⟩
  · rintro ⟨inside, hs, rfl⟩
    exact ⟨inside, rest, hs, rfl, rfl⟩

/-- A brace expression ends at the same brace, whatever follows. -/
theorem exists_of_after?_eq_some (h : after? ('{' :: text) = some rest) :
    ∃ inside, text = inside ++ '}' :: rest ∧
      ∀ other, after? ('{' :: (inside ++ '}' :: other)) = some other := by
  obtain ⟨inside, hs, rfl⟩ := after?_eq_some_iff.mp h
  exact ⟨inside, rfl, fun other => after?_eq_some_iff.mpr ⟨inside, hs, rfl⟩⟩

end Scan

/-! ### The two grammars -/

/-- What an interpolation is read as matters in template literals only. -/
theorem Place.openers_congr {place : Place} (ht : place ≠ .template) (hi : place ≠ .interpolation)
    (interpolated interpolated' : Place) :
    place.openers interpolated = place.openers interpolated' := by
  cases place <;> first | rfl | contradiction

/-- Without a backquote there is no template literal, and it does not matter what an interpolation
    is read as. -/
theorem Spells.of_no_backquote {interpolated place : Place} {text : List Char}
    (hs : Spells interpolated place text) (interpolated' : Place) (ht : place ≠ .template)
    (hi : place ≠ .interpolation) (hb : '\x60' ∉ text) : Spells interpolated' place text := by
  have hm : place.moves interpolated' = place.moves interpolated := by
    rw [Place.moves, Place.openers_congr ht hi interpolated' interpolated, Place.moves]
  induction hs with
  | nil => exact .nil
  | plain hc _ ih =>
    rw [List.mem_cons, not_or] at hb
    exact .plain (by rwa [Place.Plain, hm]) (ih ht hi hb.2 hm)
  | escape he _ ih =>
    simp only [List.mem_cons, not_or] at hb
    exact .escape he (ih ht hi hb.2.2 hm)
  | @piece place inner opener inside text ho _ _ ihi iht =>
    simp only [List.mem_append, not_or] at hb
    -- the place that is entered is no template literal either, so it has the same marks
    have hinner : inner ≠ .template ∧ inner ≠ .interpolation := by
      cases place <;> simp_all [Place.openers]
      grind
    rw [Place.openers_congr ht hi interpolated interpolated'] at ho
    refine .piece opener ho (ihi hinner.1 hinner.2 hb.2.1 ?_) (iht ht hi hb.2.2.2 hm)
    rw [Place.moves, Place.openers_congr hinner.1 hinner.2 interpolated' interpolated, Place.moves]

/-- The scanner reads a brace expression to its end, whatever follows, exactly if its inside is
    spelled by the grammar that reads interpolations flatly.  Where no template literal is, that is
    the grammar of JavaScript. -/
theorem after?_append_eq_some_iff (inside rest : List Char) :
    (after? ('{' :: (inside ++ '}' :: rest)) = some rest ↔ Spells .interpolation .code inside) ∧
      ('\x60' ∉ inside → (Spells .code .code inside ↔ Spells .interpolation .code inside)) := by
  constructor
  · rw [after?_eq_some_iff]
    constructor
    · rintro ⟨inside', hs, h⟩
      rwa [List.append_cancel_right h]
    · exact fun hs => ⟨inside, hs, rfl⟩
  · intro hb
    exact ⟨fun hs => hs.of_no_backquote _ nofun nofun hb,
      fun hs => hs.of_no_backquote _ nofun nofun hb⟩

/-- A template literal whose interpolation is a string, with a brace and a backquote in the
    string. -/
def stringInTemplate : List Char :=
  ['\x60', '$', '{', '\'', '}', '\x60', '\'', '}', '\x60']

/-- The scanner ends the interpolation at the brace in the string, the template literal at the
    backquote after it, and does not find the end of the expression. -/
theorem after?_stringInTemplate : Spells .code .code stringInTemplate ∧
    after? ('{' :: (stringInTemplate ++ ['}'])) = none := by
  constructor
  · have string : Spells .code (.quoted '\'') ['}', '\x60'] :=
      .plain (by decide) (.plain (by decide) .nil)
    have code : Spells .code .code ['\'', '}', '\x60', '\''] :=
      .piece ['\''] (by decide) string .nil
    have template : Spells .code .template ['$', '{', '\'', '}', '\x60', '\'', '}'] :=
      .piece ['$', '{'] (by decide) code .nil
    exact .piece ['\x60'] (by decide) template .nil
  · decide

end SvelteStories.Markup.Braces
