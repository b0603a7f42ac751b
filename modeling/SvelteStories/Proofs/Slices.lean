import SvelteStories.Text.Search
import SvelteStories.Text.Span

/-!
# Parts of a text

A span selects a part of a text exactly if the text splits before and behind that part, at the byte
offsets of the span.  So the parts that two adjacent spans select stand next to each other.

## Key results

- `slice?_eq_some`: what a span selects
- `slice?_append`: the parts of adjacent spans
- `slice_infix`: what a span selects is a part of the text
-/

namespace SvelteStories.Text

variable {text inside first second : List Char} {span : Span}

/-! ## Splitting -/

/-- The text before a byte offset and the text behind it are found again. -/
theorem splitAtByte?_append (before after : List Char) :
    splitAtByte? (before ++ after) (byteLength before) = some (before, after) := by
  induction before with
  | nil => cases after <;> rfl
  | cons c before ih =>
    have hpos : 0 < c.utf8Size := c.utf8Size_pos
    obtain ⟨n, hn⟩ := Nat.exists_eq_add_of_lt (show 0 < byteLength (c :: before) by
      rw [byteLength_cons]; omega)
    rw [Nat.zero_add] at hn
    rw [byteLength_cons] at hn
    -- the offset is behind the first character, and the rest of it counts from there
    have hle : c.utf8Size ≤ n + 1 := by omega
    have hrest : n + 1 - c.utf8Size = byteLength before := by omega
    rw [List.cons_append, byteLength_cons, hn, splitAtByte?, if_pos hle, hrest, ih, Option.map_some]

/-- A text splits at a byte offset in one way only. -/
theorem append_inj_of_byteLength {before before' after after' : List Char}
    (h : before ++ after = before' ++ after') (hlen : byteLength before = byteLength before') :
    before = before' ∧ after = after' := by
  have hsplit := splitAtByte?_append before after
  rw [h, hlen, splitAtByte?_append] at hsplit
  obtain ⟨hbefore, hafter⟩ := Prod.mk.inj (Option.some.inj hsplit)
  exact ⟨hbefore.symm, hafter.symm⟩

/-! ## Spans -/

/-- A span selects a part of a text exactly if the part starts and stops at the offsets of the
    span. -/
theorem slice?_eq_some :
    span.slice? text = some inside ↔
      ∃ before after, text = before ++ (inside ++ after) ∧ span.start = byteLength before ∧
        span.stop = byteLength before + byteLength inside := by
  constructor
  · intro h
    unfold Span.slice? at h
    split at h
    · rename_i hle
      obtain ⟨⟨before, rest⟩, hbefore, h⟩ := Option.bind_eq_some_iff.mp h
      obtain ⟨⟨found, after⟩, hfound, h⟩ := Option.bind_eq_some_iff.mp h
      obtain rfl : found = inside := Option.some.inj h
      -- the text is split at the start of the span, and the rest at its length
      obtain ⟨rfl, hstart⟩ := eq_append_of_splitAtByte? hbefore
      obtain ⟨rfl, hinside⟩ := eq_append_of_splitAtByte? hfound
      exact ⟨before, after, rfl, hstart.symm, by omega⟩
    · exact nomatch h
  · rintro ⟨before, after, rfl, hstart, hstop⟩
    have hle : span.start ≤ span.stop := by omega
    have hlength : span.stop - span.start = byteLength inside := by omega
    rw [Span.slice?, if_pos hle, hlength, hstart]
    simp only [splitAtByte?_append, Option.bind_eq_bind, Option.bind_some, Option.pure_def]

theorem slice?_of_append (before inside after : List Char) :
    Span.slice? ⟨byteLength before, byteLength before + byteLength inside⟩
      (before ++ (inside ++ after)) = some inside :=
  slice?_eq_some.mpr ⟨before, after, rfl, rfl, rfl⟩

/-- The part that a span selects takes as many bytes as the span has. -/
theorem stop_of_slice? (h : span.slice? text = some inside) :
    span.stop = span.start + byteLength inside := by
  obtain ⟨_, _, -, hstart, hstop⟩ := slice?_eq_some.mp h
  rw [hstop, hstart]

/-- Adjacent spans select parts that stand next to each other. -/
theorem slice?_append {start middle stop : Nat}
    (hfirst : Span.slice? ⟨start, middle⟩ text = some first)
    (hsecond : Span.slice? ⟨middle, stop⟩ text = some second) :
    Span.slice? ⟨start, stop⟩ text = some (first ++ second) := by
  obtain ⟨before, after, rfl, hstart, hmiddle⟩ := slice?_eq_some.mp hfirst
  obtain ⟨before', after', htext, hmiddle', hstop⟩ := slice?_eq_some.mp hsecond
  dsimp only at hstart hmiddle hmiddle' hstop
  -- both split the text at the same offset
  have hsplit : before ++ first ++ after = before' ++ (second ++ after') := by
    rw [List.append_assoc]
    exact htext
  have hlen : byteLength (before ++ first) = byteLength before' := by
    rw [byteLength_append]
    omega
  obtain ⟨rfl, rfl⟩ := append_inj_of_byteLength hsplit hlen
  refine slice?_eq_some.mpr ⟨before, after', by simp only [List.append_assoc], hstart, ?_⟩
  rw [byteLength_append] at hstop ⊢
  dsimp only
  omega

/-- Nothing stands between a place and itself. -/
theorem slice?_stop {start stop : Nat} (h : Span.slice? ⟨start, stop⟩ text = some inside) :
    Span.slice? ⟨stop, stop⟩ text = some [] := by
  obtain ⟨before, after, rfl, hstart, hstop⟩ := slice?_eq_some.mp h
  refine slice?_eq_some.mpr ⟨before ++ inside, after,
    by simp only [List.append_assoc, List.nil_append], ?_, ?_⟩
  · rw [byteLength_append]
    exact hstop
  · rw [byteLength_append, byteLength_nil, Nat.add_zero]
    exact hstop

/-- A span that selects something is not empty. -/
theorem start_lt_stop_of_slice? (h : span.slice? text = some inside) (hne : inside ≠ []) :
    span.start < span.stop := by
  obtain ⟨c, cs, rfl⟩ := List.exists_cons_of_ne_nil hne
  have hpos := c.utf8Size_pos
  rw [stop_of_slice? h, byteLength_cons]
  omega

/-- The part that a span selects is a part of the text. -/
theorem slice_infix (span : Span) (text : List Char) : span.slice text <:+: text := by
  unfold Span.slice
  cases h : span.slice? text with
  | none => exact List.nil_infix
  | some inside =>
    obtain ⟨before, after, rfl, -, -⟩ := slice?_eq_some.mp h
    exact ⟨before, after, by rw [Option.getD_some, List.append_assoc]⟩

/-! ## What was read -/

/-- What was read, when what is left is known. -/
@[simp] theorem consumed_append_self (read rest : List Char) :
    consumed (read ++ rest) rest = read := by
  simp [consumed]

end SvelteStories.Text
