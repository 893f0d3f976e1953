import RuleFlow.Storage.Files
import Mathlib.Data.List.Basic
import Mathlib.Data.String.Basic
/-! # Texts of paths

A path is a text in which slashes set names apart, some of which lead back.  A name that does not is one step down from
whatever place it is joined to.  Main statement: `locate_join`. -/
namespace RuleFlow.FilePath

def step (place : FilePath) (name : String) : FilePath :=
  if name = "" ∨ name = "." then place
  else if name = ".." then place.dropLast
  else place ++ [name]

def names (text : List Char) : List String := (text.splitOn '/').map String.ofList

/-- Where the text of a path leads from a place. -/
def locate (place : FilePath) (path : String) : FilePath :=
  (names path.toList).foldl step (if path.toList.head? = some '/' then [] else place)

structure Down (name : String) : Prop where
  ne_empty : name ≠ ""
  ne_here : name ≠ "."
  ne_up : name ≠ ".."
  noSlash : '/' ∉ name.toList

theorem names_slash (front back : List Char) : names (front ++ '/' :: back) = names front ++ names back := by
  rw [names, List.splitOn_append_cons_self, List.map_append]
  rfl

theorem names_of_noSlash {name : String} (h : '/' ∉ name.toList) : names name.toList = [name] := by
  rw [names, List.splitOn_eq_singleton h, List.map_singleton, String.ofList_toList]

theorem Down.step_eq {name : String} (h : Down name) (place : FilePath) : step place name = place ++ [name] := by
  rw [step, if_neg (not_or.2 ⟨h.ne_empty, h.ne_here⟩), if_neg h.ne_up]

theorem head?_append {path : String} (hpath : path ≠ "") (back : String) :
    (path ++ back).toList.head? = path.toList.head? := by
  rw [String.toList_append, List.head?_append_of_ne_nil _ (by simpa using hpath)]

/-- A name that leads down is one step down from where it is joined. -/
theorem locate_join {name : String} (h : Down name) (place : FilePath) (path : String) :
    locate place (join path name) = locate place path ++ [name] := by
  have hrelative : name.toList.head? ≠ some '/' := fun hslash => h.noSlash (List.mem_of_mem_head? hslash)
  have hname := names_of_noSlash h.noSlash
  rw [join, if_neg hrelative, ← h.step_eq]
  rcases eq_or_ne path "" with rfl | hpath
  · rw [if_pos (.inl rfl), String.empty_append, locate, hname, if_neg hrelative]
    rfl
  · split
    · next hend =>
      -- the path has an empty name after its last slash, in place of which the name comes
      obtain ⟨front, hfront⟩ := List.getLast?_eq_some_iff.1 (hend.resolve_left hpath)
      have hjoined : names (path ++ name).toList = names front ++ [name] := by
        rw [String.toList_append, hfront, List.append_assoc, List.singleton_append, names_slash, hname]
      have hempty : names path.toList = names front ++ [""] := by
        rw [hfront, names_slash]
        rfl
      rw [locate, hjoined, head?_append hpath, locate, hempty, List.foldl_append, List.foldl_append]
      rfl
    · have hjoined : names (path ++ ("/" ++ name)).toList = names path.toList ++ [name] := by
        rw [String.toList_append, String.toList_append, ← hname]
        exact names_slash _ _
      rw [String.append_assoc, locate, hjoined, head?_append hpath, List.foldl_append]
      rfl

end RuleFlow.FilePath
