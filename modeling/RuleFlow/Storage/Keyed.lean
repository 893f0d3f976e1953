/-! # Keyed lists

Lists in which an item is looked up and replaced by a key of its own.  Main statements: what is put under a key is
found there, and other keys are left alone. -/
namespace RuleFlow.Keyed

variable {α κ : Type} [DecidableEq κ]

/-- Replaces the first item with the key of an item, or adds the item at the end. -/
def put (key : α → κ) (a : α) : List α → List α
  | [] => [a]
  | b :: rest => if key b = key a then a :: rest else b :: put key a rest

def get? (key : α → κ) (xs : List α) (k : κ) : Option α := xs.find? fun a => key a = k

theorem get?_put_self (key : α → κ) (a : α) (xs : List α) : get? key (put key a xs) (key a) = some a := by
  induction xs with
  | nil => simp [put, get?]
  | cons b rest ih =>
    unfold put
    split
    · simp [get?]
    · rename_i h
      simpa [get?, h] using ih

theorem get?_put_of_ne (key : α → κ) (a : α) (xs : List α) {k : κ} (h : key a ≠ k) :
    get? key (put key a xs) k = get? key xs k := by
  induction xs with
  | nil => simp [put, get?, h]
  | cons b rest ih =>
    unfold put
    split
    · rename_i hb
      simp [get?, h, hb]
    · simp only [get?, List.find?_cons]
      split
      · rfl
      · exact ih

end RuleFlow.Keyed
