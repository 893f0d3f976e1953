import RuleFlow.Proofs.Execution.Confinement
/-! # What is listed of a directory

Whatever lies in the directory of a rule, what is listed are the records that its files spell, one for each, the newest
first; a limit cuts that list.  An entry that spells no record makes no difference.  Main statement:
`list_of_directory`. -/
namespace RuleFlow

theorem FileTree.mem_list_iff {t : FileTree} {directory : FilePath} {name : String} {entry : FileEntry} :
    (name, entry) ∈ t.list directory ↔ (directory ++ [name], entry) ∈ t.entries := by
  unfold list
  rw [List.mem_filterMap]
  constructor
  · intro h
    obtain ⟨⟨path, found⟩, hmem, h⟩ := h
    obtain ⟨name', hname, heq⟩ := Option.map_eq_some_iff.1 h
    cases heq
    unfold nameIn? at hname
    split at hname
    · next last hlast =>
      obtain ⟨hdirectory, hlastName⟩ := Option.ite_none_right_eq_some.1 hname
      obtain rfl : last = name := Option.some_inj.1 hlastName
      rw [← hdirectory, List.dropLast_append_getLast? last hlast]
      exact hmem
    · cases hname
  · intro h
    exact ⟨_, h, by simp [nameIn?]⟩

namespace ExecutionLog

/-- Whether an entry of a directory is a file that spells a record: its name has the extension of record files, it can
be read, and its text is that of a record. -/
inductive Spells : String × FileEntry → ExecutionRecord → Prop
  | file {name text : String} {r : ExecutionRecord} (hname : HasExtension name "json")
    (htext : (Document.parse text).bind ExecutionRecord.decoder.run = some r) : Spells (name, .file text) r

variable {r : ExecutionRecord}

def spelled? (f : String × FileEntry) : Option ExecutionRecord := readFile? f.1 f.2

theorem spelled?_eq_some_iff {f : String × FileEntry} : spelled? f = some r ↔ Spells f r := by
  obtain ⟨name, entry⟩ := f
  constructor
  · intro h
    cases entry with
    | directory => cases h
    | binary => cases h
    | file text =>
      rw [spelled?, readFile?, Option.ite_none_right_eq_some] at h
      exact .file (isRecordName_iff.1 h.1) h.2
  · intro h
    obtain ⟨hname, htext⟩ := h
    rw [spelled?, readFile?, if_pos (isRecordName_iff.2 hname)]
    exact htext

/-- Whether some records are what the entries of a directory spell, in the order of listing. -/
structure Lists (found : List (String × FileEntry)) (listed : List ExecutionRecord) : Prop where
  /-- There is one record for each entry that spells one, and no other. -/
  perm : listed.Perm (found.filterMap spelled?)
  /-- A run that ended later comes before one that ended earlier, and of two that ended together the greater id. -/
  sorted : listed.Pairwise fun r s =>
    s.completedAt.le r.completedAt = true ∧ (r.completedAt = s.completedAt → s.id ≤ r.id)

variable {found : List (String × FileEntry)} {listed : List ExecutionRecord}

theorem lists_listFiles (found : List (String × FileEntry)) : Lists found (listFiles found) where
  perm := List.mergeSort_perm _ _
  sorted := (listFiles_sorted found).imp listedBefore_iff.1

theorem Lists.mem_iff (h : Lists found listed) : r ∈ listed ↔ ∃ f ∈ found, Spells f r := by
  rw [h.perm.mem_iff, List.mem_filterMap]
  exact exists_congr fun f => and_congr_right fun _ => spelled?_eq_some_iff

def listingKey (r : ExecutionRecord) : Instant × String := (r.completedAt, r.id)

/-- In whatever order a directory is enumerated, the records are listed in the same order, up to records that ended
together and have one id. -/
theorem Lists.keys_eq (h : Lists found listed) {found' : List (String × FileEntry)} {listed' : List ExecutionRecord}
    (h' : Lists found' listed') (hfound : found'.Perm found) : listed'.map listingKey = listed.map listingKey := by
  have hperm : listed'.Perm listed := h'.perm.trans ((hfound.filterMap _).trans h.perm.symm)
  have hsorted {listed : List ExecutionRecord} {found : List (String × FileEntry)} (h : Lists found listed) :
      (listed.map listingKey).Pairwise fun k l => l.1.le k.1 = true ∧ (k.1 = l.1 → l.2 ≤ k.2) :=
    List.pairwise_map.2 h.sorted
  refine (hperm.map listingKey).eq_of_pairwise (fun k l _ _ hkl hlk => ?_) (hsorted h') (hsorted h)
  have htime := Instant.le_antisymm hlk.1 hkl.1
  exact Prod.ext htime (le_antisymm (hlk.2 htime.symm) (hkl.2 htime))

theorem listFiles_eq (found : List (String × FileEntry)) :
    listFiles found = (found.filterMap spelled?).mergeSort listedBefore :=
  rfl

/-- An entry that spells no record makes no difference, wherever it stands. -/
theorem listFiles_skip (before after : List (String × FileEntry)) {bad : String × FileEntry}
    (hbad : ∀ r, ¬Spells bad r) : listFiles (before ++ bad :: after) = listFiles (before ++ after) := by
  have hnone : spelled? bad = none := by
    rw [Option.eq_none_iff_forall_ne_some]
    exact fun r hr => hbad r (spelled?_eq_some_iff.1 hr)
  rw [listFiles_eq, listFiles_eq, List.filterMap_append, List.filterMap_cons_none hnone, ← List.filterMap_append]

variable {t : FileTree} {tenant rule : String} {directory : FilePath}

/-- What is listed of a rule whose directory is there. -/
theorem list_of_find (hnames : ruleDirectory tenant rule = .ok directory)
    (hthere : t.find directory = .ok (some .directory)) (limit : Option Nat) :
    list (.files t) tenant rule limit = .ok (cut limit (listFiles (t.list directory))) := by
  have hopen : openDirectory t directory = .ok (t.list directory) := by rw [openDirectory, hthere]
  rw [list, listAll, hnames]
  change Except.map (cut limit) (do return listFiles (← openDirectory t directory)) = _
  rw [hopen]
  rfl

/-- If the directory of a rule is there, then the records of the rule are listed, whatever else lies in the directory:
those that its files spell, one for each, the newest first, and of these the first ones up to a limit.  The order in
which the directory is enumerated matters only between records that ended together and have one id.  Where an entry
spells no record, the same is listed as without it. -/
theorem list_of_directory (hnames : ruleDirectory tenant rule = .ok directory)
    (hthere : t.find directory = .ok (some .directory)) :
    ∃ listed, list (.files t) tenant rule none = .ok listed ∧
      (∀ limit, list (.files t) tenant rule (some limit) = .ok (listed.take limit)) ∧
      Lists (t.list directory) listed ∧
      (∀ f r, spelled? f = some r ↔ Spells f r) ∧
      (∀ r, r ∈ listed ↔ ∃ name entry, (directory ++ [name], entry) ∈ t.entries ∧ Spells (name, entry) r) ∧
      (∀ found listed', found.Perm (t.list directory) → Lists found listed' →
        listed'.map listingKey = listed.map listingKey) ∧
      ∀ (t' : FileTree) before bad after, t'.find directory = .ok (some .directory) →
        t'.list directory = before ++ bad :: after → t.list directory = before ++ after → (∀ r, ¬Spells bad r) →
        ∀ limit, list (.files t') tenant rule limit = list (.files t) tenant rule limit := by
  have hlists := lists_listFiles (t.list directory)
  refine ⟨listFiles (t.list directory), list_of_find hnames hthere none,
    fun limit => list_of_find hnames hthere (some limit), hlists, fun _ _ => spelled?_eq_some_iff, fun r => ?_,
    fun found listed' hfound h' => hlists.keys_eq h' hfound, ?_⟩
  · rw [hlists.mem_iff]
    simp only [Prod.exists, FileTree.mem_list_iff]
  · intro t' before bad after hthere' hwith hwithout hbad limit
    rw [list_of_find hnames hthere', list_of_find hnames hthere, hwith, hwithout, listFiles_skip before after hbad]

/-- A directory with the files of two runs, and with much else that spells no record. -/
def strewn : FileTree where
  entries := [([], .directory), (["t"], .directory), (["t", "r"], .directory),
    (["t", "r", "notes.txt"], .file "seen"),
    (["t", "r", "e1" ++ ending], .file (ran "e1" 0).fileText), (["t", "r", "broken.json"], .file "\x7b"),
    (["t", "r", "empty.json"], .file "\x7b\x7d"), (["t", "r", "bytes.json"], .binary),
    (["t", "r", "sub.json"], .directory), (["t", "r", "e2" ++ ending], .file (ran "e2" 60).fileText)]

/-- Of a strewn directory the two runs are listed, the later one first, and with a limit of one the later one only. -/
theorem list_of_strewn :
    ruleDirectory "t" "r" = .ok ["t", "r"] ∧ strewn.find ["t", "r"] = .ok (some .directory) ∧
      list (.files strewn) "t" "r" none = .ok [ran "e2" 60, ran "e1" 0] ∧
      list (.files strewn) "t" "r" (some 1) = .ok [ran "e2" 60] := by
  have hnames := ruleDirectory_eq directoryName_runs.1 directoryName_runs.2
  have hthere : strewn.find ["t", "r"] = .ok (some .directory) := by
    have hpath : strewn.refusal? ["t", "r"] = none := by decide +kernel
    rw [find_rule, hpath]
    rfl
  obtain ⟨listed, hall, hsome, hlists, -⟩ := list_of_directory hnames hthere
  have hentries : strewn.list ["t", "r"] =
      [("notes.txt", .file "seen"), ("e1" ++ ending, .file (ran "e1" 0).fileText), ("broken.json", .file "\x7b"),
        ("empty.json", .file "\x7b\x7d"), ("bytes.json", .binary), ("sub.json", .directory),
        ("e2" ++ ending, .file (ran "e2" 60).fileText)] := by
    simp [strewn, FileTree.list, FileTree.nameIn?, List.filterMap_cons]
  have hspelled : (strewn.list ["t", "r"]).filterMap spelled? = runs := by
    have hnotes : spelled? ("notes.txt", .file "seen") = none := by decide +kernel
    have hbroken : spelled? ("broken.json", .file "\x7b") = none := by decide +kernel
    have hempty : spelled? ("empty.json", .file "\x7b\x7d") = none := by decide +kernel
    have hbytes : spelled? ("bytes.json", .binary) = none := rfl
    have hsub : spelled? ("sub.json", .directory) = none := rfl
    have hrecord (id : String) (seconds : Int) (hr : ran id seconds ∈ runs) :
        spelled? (id ++ ending, .file (ran id seconds).fileText) = some (ran id seconds) := by
      have hread := readFile?_record (storable_runs (ran id seconds) hr)
      have hid : (ran id seconds).id = id := rfl
      rw [hid] at hread
      exact hread
    have hfirst := hrecord "e1" 0 List.mem_cons_self
    have hlast := hrecord "e2" 60 (List.mem_cons_of_mem _ List.mem_cons_self)
    rw [hentries, List.filterMap_cons_none hnotes, List.filterMap_cons_some hfirst, List.filterMap_cons_none hbroken,
      List.filterMap_cons_none hempty, List.filterMap_cons_none hbytes, List.filterMap_cons_none hsub,
      List.filterMap_cons_some hlast, List.filterMap_nil, runs]
  have hlisted : listed = [ran "e2" 60, ran "e1" 0] := by
    have hperm : listed.Perm [ran "e2" 60, ran "e1" 0] := (hspelled ▸ hlists.perm).trans (.swap _ _ _)
    refine eq_of_listed hperm ?_ (hlists.sorted.imp listedBefore_iff.2) ?_
    · rw [(hperm.map _).nodup_iff]
      decide
    · simp
      decide
  rw [hlisted] at hall hsome
  exact ⟨hnames, hthere, hall, hsome 1⟩

end ExecutionLog

end RuleFlow
