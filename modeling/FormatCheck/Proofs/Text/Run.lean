/-!
# Runs of characters

Readers take the longest front part of a text with some property. Such a run ends where it was meant
to end if what follows does not go on with the property, which is what `Stops` says.
-/

namespace FormatCheck
namespace Text

variable {p : Char → Bool} {s rest : List Char}

/-- A text that does not begin with a character of the class. -/
def Stops (p : Char → Bool) (rest : List Char) : Prop := ∀ c ∈ rest.head?, p c = false

theorem stops_nil (p : Char → Bool) : Stops p [] := by
  intro c hc
  cases hc

theorem stops_cons {c : Char} (hc : p c = false) (rest : List Char) : Stops p (c :: rest) := by
  intro c' hc'
  cases hc'
  exact hc

theorem stops_dropWhile (p : Char → Bool) (s : List Char) : Stops p (s.dropWhile p) := by
  induction s with
  | nil => exact stops_nil p
  | cons c s ih =>
      cases hc : p c with
      | false => simpa [List.dropWhile_cons, hc] using stops_cons hc s
      | true => simpa [List.dropWhile_cons, hc] using ih

/-- Only the first character matters. -/
theorem Stops.of_head?_eq {s t : List Char} (hs : Stops p s) (h : t.head? = s.head?) :
    Stops p t := by
  intro c hc
  exact hs c (h ▸ hc)

/-- What follows a run decides nothing about it. -/
theorem takeWhile_run (hs : ∀ c ∈ s, p c = true) (hrest : Stops p rest) :
    (s ++ rest).takeWhile p = s := by
  rw [List.takeWhile_append_of_pos hs]
  cases rest with
  | nil => simp
  | cons c rest =>
      have hc : p c = false := hrest c rfl
      simp [hc]

theorem dropWhile_run (hs : ∀ c ∈ s, p c = true) (hrest : Stops p rest) :
    (s ++ rest).dropWhile p = rest := by
  rw [List.dropWhile_append_of_pos hs]
  cases rest with
  | nil => rfl
  | cons c rest =>
      have hc : p c = false := hrest c rfl
      simp [hc]

end Text
end FormatCheck
