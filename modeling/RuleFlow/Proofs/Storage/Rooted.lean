import Mathlib.Data.List.Basic
import RuleFlow.Proofs.Storage.Files
/-! # Trees in which everything lies in a directory

To make a directory or to write a file changes no other directory, and if it is done in a directory, then all goes
on lying in one.  Main statements: `makeAlong_cons_cases` and `write_cases`, by which each is done or not, `list_set`,
`Rooted.ensure` and `Rooted.set_file`. -/
namespace RuleFlow

namespace FileTree

variable {t : FileTree} {path : FilePath}

theorem list_set {directory : FilePath} (h : path.dropLast ≠ directory) (entry : FileEntry) :
    (t.set path entry).list directory = t.list directory := by
  refine Keyed.filterMap_put (fun m (hm : m.1 = path) => ?_) t.entries
  obtain ⟨other, value⟩ := m
  obtain rfl : other = path := hm
  exact congrArg (Option.map _) (nameIn?_of_ne h)

/-- Whether a path names the same in two trees, or a directory that has been made there and is one of some. -/
def SameOrMade (directories : List FilePath) (t t' : FileTree) (path : FilePath) : Prop :=
  t'.get? path = t.get? path ∨ path ∈ directories ∧ t.get? path = none ∧ t'.get? path = some .directory

theorem sameOrMade_ensure (t : FileTree) (directory path : FilePath) :
    SameOrMade [directory] t (t.ensure directory) path := by
  rw [SameOrMade, get?_ensure]
  split
  · next hmade =>
    obtain ⟨rfl, hnone⟩ := hmade
    exact .inr ⟨List.mem_cons_self, hnone, rfl⟩
  · exact .inl rfl

theorem SameOrMade.trans {t t' t'' : FileTree} {first second : List FilePath} {path : FilePath}
    (h : SameOrMade first t t' path) (h' : SameOrMade second t' t'' path) :
    SameOrMade (first ++ second) t t'' path := by
  rcases h with hsame | ⟨hmem, hnone, hmade⟩ <;> rcases h' with hsame' | ⟨hmem', hnone', hmade'⟩
  · exact .inl (hsame'.trans hsame)
  · exact .inr ⟨List.mem_append_right _ hmem', hsame ▸ hnone', hmade'⟩
  · exact .inr ⟨List.mem_append_left _ hmem, hnone, hsame'.trans hmade⟩
  · rw [hmade] at hnone'
    cases hnone'

theorem SameOrMade.mono {t t' : FileTree} {fewer more : List FilePath} {path : FilePath}
    (h : SameOrMade fewer t t' path) (hsubset : fewer ⊆ more) : SameOrMade more t t' path :=
  h.imp_right fun hmade => ⟨hsubset hmade.1, hmade.2⟩

theorem list_ensure {directory : FilePath} (h : path.dropLast ≠ directory) :
    (t.ensure path).list directory = t.list directory := by
  unfold ensure
  split
  · exact list_set h _
  · rfl

/-- At the end of a path a directory is made, or nothing is. -/
theorem makeAlong_nil_cases (t : FileTree) (directory : FilePath) :
    (∃ cause, t.makeAlong directory [] = (.error cause, t)) ∨
      (t.ensure directory).get? directory = some .directory ∧
        t.makeAlong directory [] = (.ok (), t.ensure directory) := by
  cases hfile : t.isFile directory with
  | true => exact .inl ⟨.alreadyExists, by rw [makeAlong, hfile]; rfl⟩
  | false =>
    have hopen := isFile_eq_false_iff.1 hfile
    exact .inr ⟨get?_ensure_self hopen, makeAlong_nil hopen⟩

/-- On the way a directory is made, and those below it unless the next name is refused; or nothing is. -/
theorem makeAlong_cons_cases (t : FileTree) (directory : FilePath) (name : String) (rest : List String) :
    (∃ cause, t.makeAlong directory (name :: rest) = (.error cause, t)) ∨
      (t.ensure directory).get? directory = some .directory ∧
        ((∃ cause, t.makeAlong directory (name :: rest) = (.error cause, t.ensure directory)) ∨
          t.makeAlong directory (name :: rest) = (t.ensure directory).makeAlong (directory ++ [name]) rest) := by
  rw [makeAlong]
  cases hfile : t.isFile directory with
  | true => exact .inl ⟨.notADirectory, rfl⟩
  | false =>
    refine .inr ⟨get?_ensure_self (isFile_eq_false_iff.1 hfile), ?_⟩
    cases isTooLong name with
    | true => exact .inl ⟨.nameTooLong, rfl⟩
    | false => exact .inr rfl

/-- A file is written in place of what is no directory, or nothing is. -/
theorem write_cases (t : FileTree) (directory : FilePath) (name text : String) :
    (∃ cause, t.write directory name text = (.error cause, t)) ∨
      t.get? (directory ++ [name]) ≠ some .directory ∧
        t.write directory name text = (.ok (), t.set (directory ++ [name]) (.file text)) := by
  unfold write
  split
  · exact .inl ⟨_, rfl⟩
  · split
    · exact .inl ⟨_, rfl⟩
    · split
      · exact .inl ⟨_, rfl⟩
      · next hfile => exact .inr ⟨hfile, rfl⟩

/-- Whether everything lies in a directory. -/
def Rooted (t : FileTree) : Prop :=
  ∀ directory name, t.get? (directory ++ [name]) ≠ none → t.get? directory = some .directory

theorem rooted_empty (base : String) : Rooted { base } := fun _ _ h => absurd rfl h

namespace Rooted

theorem get?_eq_none (ht : t.Rooted) (directory : FilePath) (h : t.get? directory = none) (name : String) :
    t.get? (directory ++ [name]) = none := by
  by_contra hsome
  rw [ht directory name hsome] at h
  cases h

theorem ensure_base (ht : t.Rooted) : (t.ensure []).Rooted := by
  intro parent child hchild
  rw [get?_ensure_of_ne (by simp)] at hchild
  exact get?_ensure_of_directory (ht parent child hchild)

theorem ensure (ht : t.Rooted) (directory : FilePath) {name : String} (h : t.get? directory = some .directory) :
    (t.ensure (directory ++ [name])).Rooted := by
  intro parent child hchild
  rw [get?_ensure] at hchild ⊢
  split at hchild
  · next hmade =>
    obtain ⟨rfl, -⟩ := List.append_inj' hmade.1 rfl
    rw [h]
    split <;> rfl
  · rw [ht parent child hchild]
    split <;> rfl

theorem set_file {directory : FilePath} {name : String} (ht : t.Rooted) (h : t.get? directory = some .directory)
    (hfile : t.get? (directory ++ [name]) ≠ some .directory) (text : String) :
    (t.set (directory ++ [name]) (.file text)).Rooted := by
  intro parent child hchild
  rw [get?_set] at hchild ⊢
  have hparent : t.get? parent = some .directory := by
    split at hchild
    · next hmade =>
      obtain ⟨rfl, -⟩ := List.append_inj' hmade rfl
      exact h
    · exact ht parent child hchild
  rw [if_neg (by rintro rfl; exact hfile hparent), hparent]

end Rooted

end FileTree

end RuleFlow
