import SvelteStories.Text.Span

/-!
# Searching in a text

A search answers with the rest of the text from where it stops, so that the part passed over is the
difference of the two.  `seek?` stops at the first place where a condition on the rest holds.
-/

namespace SvelteStories.Text

/-- The part of a text that was read when `rest` is what is left of it. -/
def consumed (text rest : List Char) : List Char :=
  text.take (text.length - rest.length)

/-- What was read and what is left make up the text. -/
theorem consumed_append {text rest : List Char} (h : rest <:+ text) :
    consumed text rest ++ rest = text := by
  obtain ⟨before, rfl⟩ := h
  simp [consumed]

/-- Whether a text starts with the given characters. -/
def startsWith : (start text : List Char) → Bool
  | [], _ => true
  | _ :: _, [] => false
  | s :: start, c :: text => s == c && startsWith start text

/-- A text starts with given characters exactly when they are its beginning. -/
theorem startsWith_iff (start text : List Char) :
    startsWith start text = true ↔ start <+: text := by
  induction start generalizing text with
  | nil => simp [startsWith]
  | cons s start ih =>
    cases text with
    | nil => simp [startsWith]
    | cons c text => simp [startsWith, ih, List.cons_prefix_cons]

/-- The rest of a text from the first place where the condition holds of it. -/
def seek? (stop : List Char → Bool) : List Char → Option (List Char)
  | [] => none
  | c :: cs => if stop (c :: cs) then some (c :: cs) else seek? stop cs

/-- A search stops at a rest of the text of which its condition holds. -/
theorem suffix_of_seek? {stop : List Char → Bool} {text rest : List Char}
    (h : seek? stop text = some rest) : rest <:+ text ∧ stop rest = true := by
  induction text with
  | nil => simp [seek?] at h
  | cons c cs ih =>
    simp only [seek?] at h
    split at h
    · cases h; exact ⟨List.suffix_refl _, by assumption⟩
    · obtain ⟨hs, hp⟩ := ih h
      exact ⟨hs.trans (List.suffix_cons c cs), hp⟩

end SvelteStories.Text
