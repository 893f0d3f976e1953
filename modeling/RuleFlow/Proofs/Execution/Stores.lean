import RuleFlow.Proofs.Execution.Decoding
import RuleFlow.Proofs.Execution.Listing
import RuleFlow.Proofs.Storage.Files
/-! # The log in memory and the log in files

Both hold the records that were inserted, one in the order in which they came, the other in a file each, whose text is
read again when records are listed. -/
namespace RuleFlow.ExecutionLog

def insertAll (log : ExecutionLog) (rs : List ExecutionRecord) : ExecutionLog :=
  rs.foldl (fun log r => (log.insert r).2.1) log

/-- What tells records apart. -/
def identity (r : ExecutionRecord) : String × String × String := (r.tenantId, r.ruleId, r.id)

/-- Whether an identifier can be the name of a directory, for the store and for the files below it. -/
structure DirectoryName (value : String) : Prop extends FileName value where
  checked : checkName value = .ok value

theorem ruleDirectory_eq {tenant rule : String} (htenant : DirectoryName tenant) (hrule : DirectoryName rule) :
    ruleDirectory tenant rule = .ok [tenant, rule] := by
  simp only [ruleDirectory, htenant.checked, hrule.checked]
  rfl

/-- Whether a record can be kept in a file and read again. -/
structure Storable (r : ExecutionRecord) : Prop where
  tenant : DirectoryName r.tenantId
  rule : DirectoryName r.ruleId
  id : checkName r.id = .ok r.id
  file : FileName (r.id ++ ending)
  result : r.result ≠ some .null
  readsBack : r.ReadsBack

def filePath (r : ExecutionRecord) : FilePath := [r.tenantId, r.ruleId] ++ [r.id ++ ending]

def directoriesOf (r : ExecutionRecord) : List FilePath := [[], [r.tenantId], [r.tenantId, r.ruleId]]

theorem identity_of_filePath {r s : ExecutionRecord} (h : filePath r = filePath s) : identity r = identity s := by
  simp only [filePath, List.cons_append, List.nil_append, List.cons.injEq, and_true] at h
  rw [identity, identity, h.1, h.2.1, (String.append_left_inj ending).1 h.2.2]

theorem recordPath_eq {r : ExecutionRecord} (h : Storable r) :
    recordPath r = .ok ([r.tenantId, r.ruleId], r.id ++ ending) := by
  simp only [recordPath, ruleDirectory_eq h.tenant h.rule, h.id]
  rfl

/-- Whether a name has an extension, which stands behind its last dot; something has to stand before that. -/
def HasExtension (name extension : String) : Prop :=
  ∃ stem, stem ≠ "" ∧ name = stem ++ "." ++ extension ∧ '.' ∉ extension.toList

theorem append_extension (stem : String) : stem ++ "." ++ "json" = stem ++ ending := by
  have hending : "." ++ "json" = ending := rfl
  rw [String.append_assoc, hending]

theorem isRecordName_iff {name : String} : isRecordName name = true ↔ HasExtension name "json" := by
  rw [isRecordName, Bool.and_eq_true, String.endsWith, String.Slice.endsWith_string_iff, String.copy_toSlice,
    bne_iff_ne]
  constructor
  · intro h
    obtain ⟨⟨front, hfront⟩, hne⟩ := h
    have hsplit : name = String.ofList front ++ ending := by
      apply String.toList_injective
      rw [String.toList_append, String.toList_ofList, hfront]
    refine ⟨String.ofList front, ?_, ?_, by decide⟩
    · intro hempty
      rw [hempty, String.empty_append] at hsplit
      exact hne hsplit
    · rw [hsplit, append_extension]
  · intro h
    obtain ⟨stem, hstem, rfl, -⟩ := h
    rw [append_extension]
    refine ⟨?_, fun heq => hstem ?_⟩
    · rw [String.toList_append]
      exact List.suffix_append _ _
    · exact (String.append_left_inj ending).1 (heq.trans String.empty_append.symm)

/-- What is in a file of a record is the record. -/
theorem readFile?_record {r : ExecutionRecord} (h : Storable r) :
    readFile? (r.id ++ ending) (.file r.fileText) = some r := by
  have hid : r.id ≠ "" := by
    intro hempty
    have hid := h.id
    rw [hempty] at hid
    cases hid
  have hname : isRecordName (r.id ++ ending) = true :=
    isRecordName_iff.2 ⟨r.id, hid, (append_extension r.id).symm, by decide⟩
  rw [readFile?, if_pos hname]
  exact ExecutionRecord.parse_fileText h.readsBack h.result

/-- Whether the files of a tree are those of some records. -/
structure Holds (t : FileTree) (rs : List ExecutionRecord) : Prop where
  roomy : t.Roomy
  files : t.files = rs.map fun r => (filePath r, r.fileText)
  directories : ∀ path, (path, FileEntry.directory) ∈ t.entries → path.length ≤ 2
  readable : ∀ path, (path, FileEntry.binary) ∉ t.entries
  made : ∀ r ∈ rs, ∀ path ∈ directoriesOf r, t.get? path = some .directory

namespace Holds

variable {t : FileTree} {rs : List ExecutionRecord} {path : FilePath}

theorem bare (hroomy : t.Roomy) (ht : t.Bare) : Holds t [] where
  roomy := hroomy
  files := List.filterMap_eq_nil_iff.2 fun m hm => by rw [ht m hm]
  directories path hpath := by
    obtain ⟨rfl, -⟩ := Prod.mk.inj (ht _ hpath)
    exact Nat.zero_le _
  readable path hpath := nomatch (Prod.mk.inj (ht _ hpath)).2
  made _ h := absurd h List.not_mem_nil

theorem exists_record (h : Holds t rs) {text : String} (hfile : t.get? path = some (.file text)) :
    ∃ r ∈ rs, filePath r = path := by
  have hmem := FileTree.mem_files_of_get? hfile
  rw [h.files] at hmem
  obtain ⟨r, hr, heq⟩ := List.mem_map.1 hmem
  exact ⟨r, hr, congrArg Prod.fst heq⟩

theorem get?_ne_binary (h : Holds t rs) (path : FilePath) : t.get? path ≠ some .binary :=
  fun hbinary => h.readable path (FileTree.mem_entries_of_get? hbinary)

theorem isOpen (h : Holds t rs) (path : FilePath) (hpath : path.length ≤ 2) : t.Open path := by
  rcases hget : t.get? path with _ | ⟨text⟩ | _ | _
  · exact .inl hget
  · obtain ⟨r, -, rfl⟩ := h.exists_record hget
    simp [filePath] at hpath
  · exact absurd hget (h.get?_ne_binary path)
  · exact .inr hget

theorem ensure (h : Holds t rs) (hpath : path.length ≤ 2) : Holds (t.ensure path) rs := by
  by_cases hnone : t.get? path = none
  · have hensure : t.ensure path = t.set path .directory := if_pos hnone
    refine ⟨⟨?_, ?_⟩, ?_, fun other hother => ?_, fun other hother => ?_, fun r hr other hother => ?_⟩
    · exact (t.base_ensure path).symm ▸ h.roomy.short
    · exact (t.base_ensure path).symm ▸ h.roomy.noNul
    · rw [hensure, FileTree.files_set_directory hnone, h.files]
    · rw [hensure] at hother
      rcases (FileTree.mem_entries_set hnone _).1 hother with hother | hmade
      · exact h.directories other hother
      · rw [(Prod.mk.inj hmade).1]
        exact hpath
    · rw [hensure] at hother
      rcases (FileTree.mem_entries_set hnone _).1 hother with hother | hmade
      · exact h.readable other hother
      · cases (Prod.mk.inj hmade).2
    · exact FileTree.get?_ensure_of_directory (h.made r hr other hother)
  · rw [FileTree.ensure, if_neg hnone]
    exact h

/-- There is nothing at the path of a record that has not been inserted. -/
theorem get?_filePath (h : Holds t rs) {r : ExecutionRecord} (hr : ∀ s ∈ rs, identity s ≠ identity r) :
    t.get? (filePath r) = none := by
  rcases hget : t.get? (filePath r) with _ | ⟨text⟩ | _ | _
  · rfl
  · obtain ⟨s, hs, hpath⟩ := h.exists_record hget
    exact absurd (identity_of_filePath hpath) (hr s hs)
  · exact absurd hget (h.get?_ne_binary _)
  · have hlength := h.directories _ (FileTree.mem_entries_of_get? hget)
    simp [filePath] at hlength

theorem set_file (h : Holds t rs) {r : ExecutionRecord} (hr : ∀ s ∈ rs, identity s ≠ identity r)
    (hmade : ∀ path ∈ directoriesOf r, t.get? path = some .directory) :
    Holds (t.set (filePath r) (.file r.fileText)) (rs ++ [r]) := by
  have hnone : t.get? (filePath r) = none := h.get?_filePath hr
  refine ⟨⟨h.roomy.short, h.roomy.noNul⟩, ?_, fun path hpath => ?_, fun path hpath => ?_, fun s hs path hpath => ?_⟩
  · rw [FileTree.files_set_file hnone, h.files, List.map_append]
    rfl
  · rcases (FileTree.mem_entries_set hnone _).1 hpath with hpath | hwritten
    · exact h.directories path hpath
    · cases (Prod.mk.inj hwritten).2
  · rcases (FileTree.mem_entries_set hnone _).1 hpath with hpath | hwritten
    · exact h.readable path hpath
    · cases (Prod.mk.inj hwritten).2
  · have hne : path ≠ filePath r := by
      rintro rfl
      simp [filePath, directoriesOf] at hpath
    rw [FileTree.get?_set, if_neg hne]
    rcases List.mem_append.1 hs with hs | hs
    · exact h.made s hs path hpath
    · exact hmade path (List.mem_singleton.1 hs ▸ hpath)

theorem makeDirectories (h : Holds t rs) {r : ExecutionRecord} (hstorable : Storable r) :
    ∃ t', t.makeDirectories [r.tenantId, r.ruleId] = (.ok (), t') ∧ Holds t' rs ∧
      ∀ path ∈ directoriesOf r, t'.get? path = some .directory := by
  have htenant := hstorable.tenant.toFileName
  have hrule := hstorable.rule.toFileName
  have h₀ : Holds (t.ensure []) rs := h.ensure (by simp)
  have h₁ : Holds ((t.ensure []).ensure [r.tenantId]) rs := h₀.ensure (by simp)
  have h₂ : Holds (((t.ensure []).ensure [r.tenantId]).ensure [r.tenantId, r.ruleId]) rs := h₁.ensure (by simp)
  have hbase : (t.ensure []).get? [] = some .directory := FileTree.get?_ensure_self (h.isOpen [] (by simp))
  have hfirst := FileTree.get?_ensure_self (h₀.isOpen [r.tenantId] (by simp))
  have hsecond := FileTree.get?_ensure_self (h₁.isOpen [r.tenantId, r.ruleId] (by simp))
  refine ⟨_, ?_, h₂, ?_⟩
  · rw [FileTree.makeDirectories, FileTree.refusal?_eq_none h.roomy (by simp [htenant, hrule]) (by simp)]
    dsimp only
    rw [FileTree.makeAlong_cons (h.isOpen [] (by simp)) htenant, List.nil_append,
      FileTree.makeAlong_cons (h₀.isOpen _ (by simp)) hrule, List.singleton_append,
      FileTree.makeAlong_nil (h₁.isOpen _ (by simp))]
  · simp only [directoriesOf, List.mem_cons, List.not_mem_nil, or_false]
    rintro path (rfl | rfl | rfl)
    · exact FileTree.get?_ensure_of_directory (FileTree.get?_ensure_of_directory hbase)
    · exact FileTree.get?_ensure_of_directory hfirst
    · exact hsecond

/-- A record with another identity gets a file of its own. -/
theorem insert (h : Holds t rs) {r : ExecutionRecord} (hr : ∀ s ∈ rs, identity s ≠ identity r)
    (hstorable : Storable r) :
    ∃ t', insertFile t r = (.ok (), t') ∧ Holds t' (rs ++ [r]) := by
  obtain ⟨t', hmake, h', hmade⟩ := h.makeDirectories hstorable
  have hnames : ∀ name ∈ filePath r, FileName name := by
    simp [filePath, hstorable.tenant.toFileName, hstorable.rule.toFileName, hstorable.file]
  have hwritten := FileTree.write_of_none (FileTree.refusal?_eq_none h'.roomy hnames (by simp))
    hstorable.file (h'.get?_filePath hr) r.fileText
  refine ⟨t'.set (filePath r) (.file r.fileText), ?_, h'.set_file hr hmade⟩
  rw [insertFile, recordPath_eq hstorable]
  dsimp only
  rw [hmake]
  dsimp only
  rw [hwritten]
  rfl

theorem nameIn?_filePath (tenant rule : String) (r : ExecutionRecord) :
    FileTree.nameIn? [tenant, rule] (filePath r) = if isOf tenant rule r then some (r.id ++ ending) else none := by
  change (if [r.tenantId, r.ruleId] = [tenant, rule] then some (r.id ++ ending) else none) = _
  simp [isOf]

theorem nameIn?_of_length {tenant rule : String} (hpath : path.length ≤ 2) :
    FileTree.nameIn? [tenant, rule] path = none := by
  have hne : path.dropLast ≠ [tenant, rule] := by
    intro heq
    have hlength := congrArg List.length heq
    rw [List.length_dropLast] at hlength
    simp only [List.length_cons, List.length_nil] at hlength
    omega
  exact FileTree.nameIn?_of_ne hne

/-- The directory of a rule lists the files of the records of the rule. -/
theorem list_eq (h : Holds t rs) (tenant rule : String) :
    t.list [tenant, rule] = (rs.filter (isOf tenant rule)).map fun r => (r.id ++ ending, .file r.fileText) := by
  have hfiles : t.list [tenant, rule] = t.files.filterMap fun m =>
      (FileTree.nameIn? [tenant, rule] m.1).map fun name => (name, FileEntry.file m.2) := by
    unfold FileTree.list FileTree.files
    rw [List.filterMap_filterMap]
    refine List.filterMap_congr fun m hm => ?_
    obtain ⟨path, ⟨text⟩ | _ | _⟩ := m
    · rfl
    · exact absurd hm (h.readable path)
    · exact congrArg (Option.map _) (nameIn?_of_length (h.directories path hm))
  rw [hfiles, h.files, List.filterMap_map, ← List.filterMap_eq_map', List.filterMap_filter]
  refine List.filterMap_congr fun r _ => ?_
  rw [Function.comp, nameIn?_filePath]
  split <;> rfl

/-- The entries of the directory of a rule; where there is no record of it, there need be no directory. -/
theorem openDirectory_eq (h : Holds t rs) {tenant rule : String} (htenant : FileName tenant) (hrule : FileName rule) :
    openDirectory t [tenant, rule] = .ok (t.list [tenant, rule]) := by
  have hempty {path : FilePath} (hpath : path ∈ [[], [tenant], [tenant, rule]]) (hnone : t.get? path = none) :
      t.list [tenant, rule] = [] := by
    rw [h.list_eq, List.map_eq_nil_iff, List.filter_eq_nil_iff]
    intro r hr his
    obtain ⟨rfl, rfl⟩ : r.tenantId = tenant ∧ r.ruleId = rule := by simpa [isOf] using his
    cases hnone.symm.trans (h.made r hr path hpath)
  have hnames : ∀ name ∈ [tenant, rule], FileName name := by simp [htenant, hrule]
  rw [openDirectory, FileTree.find, FileTree.refusal?_eq_none h.roomy hnames (by simp)]
  dsimp only
  rcases h.isOpen [] (by simp) with hbase | hbase
  · rw [FileTree.follow_of_none hbase, hempty (by simp) hbase]
  · rw [FileTree.follow_of_directory hbase htenant, List.nil_append]
    rcases h.isOpen [tenant] (by simp) with hfirst | hfirst
    · rw [FileTree.follow_of_none hfirst, hempty (by simp) hfirst]
    · rw [FileTree.follow_of_directory hfirst hrule, List.singleton_append, FileTree.follow]
      rcases h.isOpen [tenant, rule] (by simp) with hsecond | hsecond
      · rw [hsecond, hempty (by simp) hsecond]
      · rw [hsecond]

end Holds

variable {rs : List ExecutionRecord}

theorem listFiles_sorted (entries : List (String × FileEntry)) :
    (listFiles entries).Pairwise fun r s => listedBefore r s = true := by
  have htrans : ∀ r s t, listedBefore r s = true → listedBefore s t = true → listedBefore r t = true :=
    fun _ _ _ => listedBefore_trans
  exact List.pairwise_mergeSort htrans listedBefore_total _

def Earlier (r s : ExecutionRecord) : Prop :=
  r.completedAt.le s.completedAt = true ∧ r.completedAt ≠ s.completedAt ∨ r.completedAt = s.completedAt ∧ r.id < s.id

theorem Earlier.listedBefore {r s : ExecutionRecord} (h : Earlier r s) : listedBefore s r = true := by
  rw [listedBefore_iff]
  rcases h with ⟨hle, hne⟩ | ⟨heq, hid⟩
  · exact ⟨hle, fun heq => absurd heq.symm hne⟩
  · exact ⟨heq ▸ (Instant.le_total _ _).elim id id, fun _ => hid.le⟩

def ran (id : String) (seconds : Int) : ExecutionRecord where
  id
  ruleId := "r"
  tenantId := "t"
  assetId := "well"
  triggerType := "manual"
  triggerData := .null
  startedAt := ⟨seconds, 0⟩
  completedAt := ⟨seconds + 1, 5000000⟩
  durationMs := 1005
  success := true
  result := none
  error := none
  actions := []

def runs : List ExecutionRecord := [ran "e1" 0, ran "e2" 60]

theorem directoryName_runs : DirectoryName "t" ∧ DirectoryName "r" := by
  constructor <;> constructor
  · exact ⟨by decide, by decide⟩
  · simp [checkName, String.contains_char_eq]
  · exact ⟨by decide, by decide⟩
  · simp [checkName, String.contains_char_eq]

theorem readsBack_runs : ∀ r ∈ runs, r.ReadsBack := by
  refine List.forall_mem_cons.2 ⟨⟨?_, rfl, by decide +kernel, by decide +kernel⟩, List.forall_mem_singleton.2
    ⟨?_, rfl, by decide +kernel, by decide +kernel⟩⟩
  all_goals
    simp only [ran, Document.parse, ExecutionRecord.fileText, ExecutionRecord.members, Json.optionalMember,
      Instant.toJson, Json.pretty, Json.prettyMembers, Json.quote, Json.lineBreak, List.cons_append, List.nil_append,
      List.append_nil, List.map_nil, String.toList_append, String.toList_ofList]
    decide +kernel

theorem storable_runs : ∀ r ∈ runs, Storable r := by
  have hstorable {id : String} {seconds : Int} (hr : ran id seconds ∈ runs) (hid : checkName id = .ok id)
      (hfile : FileName (id ++ ending)) : Storable (ran id seconds) :=
    ⟨directoryName_runs.1, directoryName_runs.2, hid, hfile, nofun, readsBack_runs _ hr⟩
  refine List.forall_mem_cons.2 ⟨hstorable List.mem_cons_self ?_ ⟨by decide, ?_⟩, List.forall_mem_singleton.2
    (hstorable (List.mem_cons_of_mem _ List.mem_cons_self) ?_ ⟨by decide, ?_⟩)⟩
  all_goals simp [checkName, ending, String.contains_char_eq]

theorem roomy_default : FileTree.Roomy {} := ⟨by decide, by decide⟩

end RuleFlow.ExecutionLog
