import RuleFlow.Proofs.Storage.Keyed
import RuleFlow.Storage.Files
/-! # Trees of files

What is made or written at a path that names nothing yet is added to the tree, which is otherwise left as it is. -/
namespace RuleFlow

structure FileName (name : String) : Prop where
  short : FileTree.isTooLong name = false
  noNul : '\x00' ∉ name.toList

namespace FilePath

theorem utf8ByteSize_join (path name : String) :
    (join path name).utf8ByteSize ≤ path.utf8ByteSize + 1 + name.utf8ByteSize := by
  have hslash : "/".utf8ByteSize = 1 := by decide
  unfold join
  split
  · omega
  · split
    · rw [String.utf8ByteSize_append]
      omega
    · rw [String.utf8ByteSize_append, String.utf8ByteSize_append]
      omega

theorem mem_join {path name : String} {c : Char} (h : c ∈ (join path name).toList) :
    c ∈ path.toList ∨ c = '/' ∨ c ∈ name.toList := by
  unfold join at h
  split at h
  · exact .inr (.inr h)
  · split at h
    · exact (List.mem_append.1 (String.toList_append ▸ h)).imp_right .inr
    · rw [String.toList_append, String.toList_append, List.mem_append, List.mem_append] at h
      rcases h with (hpath | hslash) | hname
      · exact .inl hpath
      · exact .inr (.inl (List.mem_singleton.1 hslash))
      · exact .inr (.inr hname)

end FilePath

namespace FileTree

variable {t : FileTree} {path : FilePath} {entry : FileEntry}

/-- Whether the path of the base directory leaves room for three names. -/
structure Roomy (t : FileTree) : Prop where
  short : t.base.utf8ByteSize ≤ 3327
  noNul : '\x00' ∉ t.base.toList

/-- Whether nothing is there but a base directory, or not even that. -/
def Bare (t : FileTree) : Prop := ∀ m ∈ t.entries, m = ([], .directory)

theorem bare_empty (base : String) : Bare { base } := fun _ h => absurd h List.not_mem_nil

theorem utf8ByteSize_foldl_join (base : String) {bound : Nat} (h : ∀ name ∈ path, name.utf8ByteSize ≤ bound) :
    (path.foldl FilePath.join base).utf8ByteSize ≤ base.utf8ByteSize + (bound + 1) * path.length := by
  induction path generalizing base with
  | nil => exact Nat.le_add_right _ _
  | cons name rest ih =>
    obtain ⟨hname, hrest⟩ := List.forall_mem_cons.1 h
    have hjoined := FilePath.utf8ByteSize_join base name
    have hall := ih (FilePath.join base name) hrest
    rw [List.foldl_cons, List.length_cons, Nat.mul_succ]
    omega

theorem nul_notMem_foldl_join {base : String} (hbase : '\x00' ∉ base.toList)
    (h : ∀ name ∈ path, '\x00' ∉ name.toList) : '\x00' ∉ (path.foldl FilePath.join base).toList := by
  induction path generalizing base with
  | nil => exact hbase
  | cons name rest ih =>
    obtain ⟨hname, hrest⟩ := List.forall_mem_cons.1 h
    refine ih (fun hjoined => ?_) hrest
    rcases FilePath.mem_join hjoined with hnul | hslash | hnul
    · exact hbase hnul
    · cases hslash
    · exact hname hnul

theorem refusal?_eq_none_of_le {bound : Nat} (hbase : '\x00' ∉ t.base.toList)
    (hnul : ∀ name ∈ path, '\x00' ∉ name.toList) (hbound : ∀ name ∈ path, name.utf8ByteSize ≤ bound)
    (hsize : t.base.utf8ByteSize + (bound + 1) * path.length ≤ 4095) : t.refusal? path = none := by
  have htext := utf8ByteSize_foldl_join t.base hbound
  rw [refusal?, text, if_neg (nul_notMem_foldl_join hbase hnul), if_neg (by omega)]

/-- Up to three names below a base directory are not too much for the system. -/
theorem refusal?_eq_none (ht : t.Roomy) (h : ∀ name ∈ path, FileName name) (hlength : path.length ≤ 3) :
    t.refusal? path = none := by
  have hbase := ht.short
  have hbound (name : String) (hname : name ∈ path) : name.utf8ByteSize ≤ 255 := by
    simpa [isTooLong] using (h name hname).short
  exact refusal?_eq_none_of_le ht.noNul (fun name hname => (h name hname).noNul) hbound (by omega)

theorem ne_of_get?_none (h : t.get? path = none) : ∀ b ∈ t.entries, b.1 ≠ path := by
  intro b hb heq
  have hne := List.lookup_eq_none_iff.1 h b hb
  simp [heq] at hne

/-- What is put at a path that names nothing is added at the end. -/
theorem entries_set (h : t.get? path = none) (entry : FileEntry) :
    (t.set path entry).entries = t.entries ++ [(path, entry)] :=
  Keyed.put_of_forall_ne (ne_of_get?_none h)

theorem mem_entries_set (h : t.get? path = none) (entry : FileEntry) {m : FilePath × FileEntry} :
    m ∈ (t.set path entry).entries ↔ m ∈ t.entries ∨ m = (path, entry) := by
  rw [entries_set h, List.mem_append, List.mem_singleton]

theorem lookup_put (path other : FilePath) (entry : FileEntry) (xs : List (FilePath × FileEntry)) :
    (Keyed.put Prod.fst (path, entry) xs).lookup other = if other = path then some entry else xs.lookup other := by
  induction xs with
  | nil => by_cases h : other = path <;> simp [Keyed.put, List.lookup_cons, h, beq_false_of_ne]
  | cons m rest ih =>
    obtain ⟨key, value⟩ := m
    rw [Keyed.put]
    split
    · next hkey =>
      obtain rfl : key = path := hkey
      by_cases h : other = key <;> simp [List.lookup_cons, h, beq_false_of_ne]
    · next hkey =>
      rw [List.lookup_cons, List.lookup_cons, ih]
      by_cases h : other = path
      · subst h
        rw [beq_false_of_ne fun heq => hkey heq.symm, if_pos rfl]
      · rw [if_neg h, if_neg h]

theorem get?_set (path : FilePath) (entry : FileEntry) (other : FilePath) :
    (t.set path entry).get? other = if other = path then some entry else t.get? other :=
  lookup_put path other entry t.entries

theorem nameIn?_of_ne {directory : FilePath} (h : path.dropLast ≠ directory) : nameIn? directory path = none := by
  unfold nameIn?
  split
  · exact if_neg h
  · rfl

@[simp] theorem base_set (path : FilePath) (entry : FileEntry) : (t.set path entry).base = t.base := rfl

@[simp] theorem base_ensure (path : FilePath) : (t.ensure path).base = t.base := by
  unfold ensure
  split <;> rfl

theorem get?_ensure (t : FileTree) (path other : FilePath) :
    (t.ensure path).get? other = if other = path ∧ t.get? path = none then some .directory else t.get? other := by
  unfold ensure
  split
  · next hnone => simp only [get?_set, hnone, and_true]
  · next hsome => rw [if_neg fun h => hsome h.2]

def Open (t : FileTree) (path : FilePath) : Prop := t.get? path = none ∨ t.get? path = some .directory

theorem isFile_eq_false_iff : t.isFile path = false ↔ t.Open path := by
  unfold isFile Open
  rcases t.get? path with _ | ⟨text⟩ | _ | _ <;> simp

theorem get?_ensure_self (h : t.Open path) : (t.ensure path).get? path = some .directory := by
  rw [get?_ensure]
  rcases h with hnone | hdirectory
  · rw [if_pos ⟨rfl, hnone⟩]
  · rw [hdirectory, if_neg nofun]

theorem get?_ensure_of_ne {other : FilePath} (h : other ≠ path) : (t.ensure path).get? other = t.get? other := by
  rw [get?_ensure, if_neg fun hmade => h hmade.1]

theorem get?_ensure_of_directory {other : FilePath} (h : t.get? other = some .directory) :
    (t.ensure path).get? other = some .directory := by
  by_cases hpath : other = path
  · subst hpath
    exact get?_ensure_self (.inr h)
  · rw [get?_ensure_of_ne hpath, h]

/-- Of the directories along a path, those are made that are not there. -/
theorem makeAlong_cons {directory : FilePath} {name : String} (h : t.Open directory) (hname : FileName name)
    (rest : List String) :
    t.makeAlong directory (name :: rest) = (t.ensure directory).makeAlong (directory ++ [name]) rest := by
  rw [makeAlong, isFile_eq_false_iff.2 h, hname.short]
  rfl

theorem makeAlong_nil {directory : FilePath} (h : t.Open directory) :
    t.makeAlong directory [] = (.ok (), t.ensure directory) := by
  rw [makeAlong, isFile_eq_false_iff.2 h]
  rfl

theorem follow_of_directory {directory : FilePath} {name : String} (h : t.get? directory = some .directory)
    (hname : FileName name) (rest : List String) :
    t.follow directory (name :: rest) = t.follow (directory ++ [name]) rest := by
  rw [follow, h]
  exact if_neg (by simp [hname.short])

/-- Where a directory on the way is not there, a path names nothing. -/
theorem follow_of_none {directory : FilePath} (h : t.get? directory = none) (names : List String) :
    t.follow directory names = .ok none := by
  cases names with
  | nil => rw [follow, h]
  | cons name rest => rw [follow, h]

theorem write_of_none {directory : FilePath} {name : String} (hpath : t.refusal? (directory ++ [name]) = none)
    (hname : FileName name) (h : t.get? (directory ++ [name]) = none) (text : String) :
    t.write directory name text = (.ok (), t.set (directory ++ [name]) (.file text)) := by
  rw [write, hpath]
  dsimp only
  rw [if_neg (by simp [hname.short]), if_neg (by simp [h])]

theorem files_set_directory (h : t.get? path = none) : (t.set path .directory).files = t.files := by
  rw [files, entries_set h, List.filterMap_append]
  exact List.append_nil _

theorem files_set_file (h : t.get? path = none) (text : String) :
    (t.set path (.file text)).files = t.files ++ [(path, text)] := by
  rw [files, entries_set h, List.filterMap_append]
  rfl

theorem mem_entries_of_get? (h : t.get? path = some entry) : (path, entry) ∈ t.entries := by
  obtain ⟨before, after, hsplit, -⟩ := List.lookup_eq_some_iff.1 h
  rw [hsplit]
  simp

theorem mem_files_of_get? {text : String} (h : t.get? path = some (.file text)) : (path, text) ∈ t.files :=
  List.mem_filterMap.2 ⟨_, mem_entries_of_get? h, rfl⟩

end FileTree

end RuleFlow
