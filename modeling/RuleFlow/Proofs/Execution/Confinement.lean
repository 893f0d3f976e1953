import RuleFlow.Proofs.Execution.Stores
import RuleFlow.Proofs.Storage.Paths
import RuleFlow.Proofs.Storage.Rooted
/-! # Records keep to their files

What identifies a record is refused or names its file, three levels below the base directory.  To insert a record
changes no other file, and makes no directory but the three in which that file lies.  So what is listed of another rule
does not change, unless a name is too long for the file system, which looks at the tenant only once there is a base
directory, and at the rule only once there is a directory of the tenant.  Main statement: `insert_confined`. -/
namespace RuleFlow.ExecutionLog

/-- Whether an identifier is not taken for a name. -/
def Refused (value : String) : Prop :=
  value = "" ∨ value = "." ∨ value = ".." ∨ '/' ∈ value.toList ∨ '\\' ∈ value.toList

theorem checkName_of_refused {value : String} (h : Refused value) :
    ∃ details, checkName value = .error (.invalidInput details) := by
  unfold Refused at h
  refine ⟨_, if_pos ?_⟩
  simpa [String.contains_char_eq] using h

theorem checkName_of_not_refused {value : String} (h : ¬Refused value) : checkName value = .ok value := by
  unfold Refused at h
  refine if_neg ?_
  simpa [String.contains_char_eq] using h

theorem ruleDirectory_of_refused {tenant rule : String} (h : Refused tenant ∨ Refused rule) :
    ∃ details, ruleDirectory tenant rule = .error (.invalidInput details) := by
  by_cases htenant : Refused tenant
  · obtain ⟨details, hcheck⟩ := checkName_of_refused htenant
    exact ⟨details, by rw [ruleDirectory, hcheck]; rfl⟩
  · obtain ⟨details, hcheck⟩ := checkName_of_refused (h.resolve_left htenant)
    exact ⟨details, by rw [ruleDirectory, checkName_of_not_refused htenant, hcheck]; rfl⟩

theorem ruleDirectory_of_not_refused {tenant rule : String} (h : ¬(Refused tenant ∨ Refused rule)) :
    ruleDirectory tenant rule = .ok [tenant, rule] := by
  obtain ⟨htenant, hrule⟩ := not_or.1 h
  rw [ruleDirectory, checkName_of_not_refused htenant, checkName_of_not_refused hrule]
  rfl

/-- Whether a record has an identifier that is refused. -/
def RefusedRecord (r : ExecutionRecord) : Prop := (Refused r.tenantId ∨ Refused r.ruleId) ∨ Refused r.id

variable {r : ExecutionRecord}

theorem recordPath_of_refused (h : RefusedRecord r) : ∃ details, recordPath r = .error (.invalidInput details) := by
  by_cases hrule : Refused r.tenantId ∨ Refused r.ruleId
  · obtain ⟨details, hdirectory⟩ := ruleDirectory_of_refused hrule
    exact ⟨details, by rw [recordPath, hdirectory]; rfl⟩
  · obtain ⟨details, hcheck⟩ := checkName_of_refused (h.resolve_left hrule)
    exact ⟨details, by rw [recordPath, ruleDirectory_of_not_refused hrule, hcheck]; rfl⟩

theorem recordPath_of_not_refused (h : ¬RefusedRecord r) :
    recordPath r = .ok ([r.tenantId, r.ruleId], r.id ++ ending) := by
  obtain ⟨hrule, hid⟩ := not_or.1 h
  rw [recordPath, ruleDirectory_of_not_refused hrule, checkName_of_not_refused hid]
  rfl

/-- The text of the path at which the file of a record is written. -/
def recordText (base : String) (r : ExecutionRecord) : String :=
  FilePath.join (FilePath.join (FilePath.join base r.tenantId) r.ruleId) (r.id ++ ending)

theorem down_of_not_refused {value : String} (h : ¬Refused value) : FilePath.Down value := by
  simp only [Refused, not_or] at h
  exact ⟨h.1, h.2.1, h.2.2.1, h.2.2.2.1⟩

/-- With its ending no name leads back. -/
theorem down_ending {value : String} (h : ¬Refused value) : FilePath.Down (value ++ ending) := by
  have hlength {other : String} (hshort : other.length < 5) : value ++ ending ≠ other := by
    rintro rfl
    rw [String.length_append, show ending.length = 5 from rfl] at hshort
    omega
  refine ⟨hlength (by decide), hlength (by decide), hlength (by decide), ?_⟩
  rw [String.toList_append, List.mem_append]
  exact not_or.2 ⟨(down_of_not_refused h).noSlash, by decide⟩

/-- The file of a record lies three levels below the base directory, whatever that is. -/
theorem locate_recordText (h : ¬RefusedRecord r) (place : FilePath) (base : String) :
    FilePath.locate place (recordText base r) = FilePath.locate place base ++ filePath r := by
  obtain ⟨hdirectory, hid⟩ := not_or.1 h
  obtain ⟨htenant, hrule⟩ := not_or.1 hdirectory
  rw [recordText, FilePath.locate_join (down_ending hid), FilePath.locate_join (down_of_not_refused hrule),
    FilePath.locate_join (down_of_not_refused htenant), List.append_assoc, List.append_assoc]
  rfl

variable {t t' : FileTree}

def withTenant (t : FileTree) (r : ExecutionRecord) : FileTree := (t.ensure []).ensure [r.tenantId]

def withDirectories (t : FileTree) (r : ExecutionRecord) : FileTree := (withTenant t r).ensure [r.tenantId, r.ruleId]

/-- What comes of the insertion of a record that is not refused: some of what it makes, in order, or all of it. -/
inductive Inserted (t : FileTree) (r : ExecutionRecord) : Except StorageError Unit → FileTree → Prop
  | nothing (cause : FileError) : Inserted t r (.error (.inputOutput cause)) t
  | base (cause : FileError) : Inserted t r (.error (.inputOutput cause)) (t.ensure [])
  | tenant (cause : FileError) (hbase : (t.ensure []).get? [] = some .directory) :
    Inserted t r (.error (.inputOutput cause)) (withTenant t r)
  | directories (cause : FileError) (hbase : (t.ensure []).get? [] = some .directory)
    (htenant : (withTenant t r).get? [r.tenantId] = some .directory) :
    Inserted t r (.error (.inputOutput cause)) (withDirectories t r)
  | file (hbase : (t.ensure []).get? [] = some .directory)
    (htenant : (withTenant t r).get? [r.tenantId] = some .directory)
    (hrule : (withDirectories t r).get? [r.tenantId, r.ruleId] = some .directory)
    (hfile : (withDirectories t r).get? (filePath r) ≠ some .directory) :
    Inserted t r (.ok ()) ((withDirectories t r).set (filePath r) (.file r.fileText))

theorem insertFile_of_refused (h : RefusedRecord r) (t : FileTree) :
    ∃ details, insertFile t r = (.error (.invalidInput details), t) := by
  obtain ⟨details, hpath⟩ := recordPath_of_refused h
  exact ⟨details, by rw [insertFile, hpath]⟩

/-- The directories of a record are made one after the other, up to one that is refused. -/
theorem makeDirectories_cases (t : FileTree) (r : ExecutionRecord) :
    (∃ cause, t.makeDirectories [r.tenantId, r.ruleId] = (.error cause, t)) ∨
      (t.ensure []).get? [] = some .directory ∧
        ((∃ cause, t.makeDirectories [r.tenantId, r.ruleId] = (.error cause, t.ensure [])) ∨
          (withTenant t r).get? [r.tenantId] = some .directory ∧
            ((∃ cause, t.makeDirectories [r.tenantId, r.ruleId] = (.error cause, withTenant t r)) ∨
              (withDirectories t r).get? [r.tenantId, r.ruleId] = some .directory ∧
                t.makeDirectories [r.tenantId, r.ruleId] = (.ok (), withDirectories t r))) := by
  unfold FileTree.makeDirectories
  cases t.refusal? [r.tenantId, r.ruleId] with
  | some cause => exact .inl ⟨cause, rfl⟩
  | none =>
    dsimp only
    rcases t.makeAlong_cons_cases [] r.tenantId [r.ruleId] with hfailed | ⟨hbase, ⟨cause, hfailed⟩ | hfirst⟩
    · exact .inl hfailed
    · exact .inr ⟨hbase, .inl ⟨cause, hfailed⟩⟩
    · rw [hfirst, List.nil_append]
      refine .inr ⟨hbase, ?_⟩
      rcases (t.ensure []).makeAlong_cons_cases [r.tenantId] r.ruleId [] with
        hfailed | ⟨htenant, ⟨cause, hfailed⟩ | hsecond⟩
      · exact .inl hfailed
      · exact .inr ⟨htenant, .inl ⟨cause, hfailed⟩⟩
      · rw [hsecond, List.singleton_append]
        exact .inr ⟨htenant, (withTenant t r).makeAlong_nil_cases [r.tenantId, r.ruleId]⟩

theorem inserted_insertFile (h : ¬RefusedRecord r) (t : FileTree) :
    Inserted t r (insertFile t r).1 (insertFile t r).2 := by
  unfold insertFile
  rw [recordPath_of_not_refused h]
  dsimp only
  rcases makeDirectories_cases t r with
    ⟨cause, hfailed⟩ | ⟨hbase, ⟨cause, hfailed⟩ | ⟨htenant, ⟨cause, hfailed⟩ | ⟨hrule, hdone⟩⟩⟩
  · rw [hfailed]
    exact .nothing cause
  · rw [hfailed]
    exact .base cause
  · rw [hfailed]
    exact .tenant cause hbase
  · rw [hdone]
    dsimp only
    rcases (withDirectories t r).write_cases [r.tenantId, r.ruleId] (r.id ++ ending) r.fileText with
      ⟨cause, hfailed⟩ | ⟨hfile, hwritten⟩
    · rw [hfailed]
      exact .directories cause hbase htenant
    · rw [hwritten]
      exact .file hbase htenant hrule hfile

theorem sameOrMade_withTenant (t : FileTree) (r : ExecutionRecord) (path : FilePath) :
    FileTree.SameOrMade [[], [r.tenantId]] t (withTenant t r) path :=
  (t.sameOrMade_ensure [] path).trans (FileTree.sameOrMade_ensure _ _ path)

theorem sameOrMade_withDirectories (t : FileTree) (r : ExecutionRecord) (path : FilePath) :
    FileTree.SameOrMade (directoriesOf r) t (withDirectories t r) path :=
  (sameOrMade_withTenant t r path).trans (FileTree.sameOrMade_ensure _ _ path)

namespace Inserted

variable {result : Except StorageError Unit}

theorem base_eq (h : Inserted t r result t') : t'.base = t.base := by
  cases h <;> simp [withDirectories, withTenant]

/-- Nothing changes but the file of the record and those of its directories that were not there. -/
theorem sameOrMade (h : Inserted t r result t') {path : FilePath} (hpath : path ≠ filePath r) :
    FileTree.SameOrMade (directoriesOf r) t t' path := by
  cases h with
  | nothing cause => exact .inl rfl
  | base cause => exact (t.sameOrMade_ensure [] path).mono (by simp [directoriesOf])
  | tenant cause => exact (sameOrMade_withTenant t r path).mono (by simp [directoriesOf])
  | directories cause => exact sameOrMade_withDirectories t r path
  | file =>
    rw [FileTree.SameOrMade, FileTree.get?_set, if_neg hpath]
    exact sameOrMade_withDirectories t r path

theorem get?_filePath (h : Inserted t r result t') :
    result = .ok () ∧ t'.get? (filePath r) = some (.file r.fileText) ∨
      (∃ cause, result = .error (.inputOutput cause)) ∧ t'.get? (filePath r) = t.get? (filePath r) := by
  have hfile (directory : FilePath) (hdirectory : directory.length ≤ 2) (t : FileTree) :
      (t.ensure directory).get? (filePath r) = t.get? (filePath r) := by
    refine FileTree.get?_ensure_of_ne ?_
    rintro rfl
    simp [filePath] at hdirectory
  have htenant : (withTenant t r).get? (filePath r) = t.get? (filePath r) :=
    (hfile _ (by simp) _).trans (hfile _ (by simp) t)
  cases h with
  | nothing cause => exact .inr ⟨⟨cause, rfl⟩, rfl⟩
  | base cause => exact .inr ⟨⟨cause, rfl⟩, hfile _ (by simp) t⟩
  | tenant cause => exact .inr ⟨⟨cause, rfl⟩, htenant⟩
  | directories cause => exact .inr ⟨⟨cause, rfl⟩, (hfile _ (by simp) _).trans htenant⟩
  | file => exact .inl ⟨rfl, by rw [FileTree.get?_set, if_pos rfl]⟩

theorem rooted (h : Inserted t r result t') (ht : t.Rooted) : t'.Rooted := by
  have hfirst (hbase : (t.ensure []).get? [] = some .directory) : (withTenant t r).Rooted :=
    ht.ensure_base.ensure [] hbase
  have hsecond (hbase : (t.ensure []).get? [] = some .directory)
      (htenant : (withTenant t r).get? [r.tenantId] = some .directory) : (withDirectories t r).Rooted :=
    (hfirst hbase).ensure [r.tenantId] htenant
  cases h with
  | nothing cause => exact ht
  | base cause => exact ht.ensure_base
  | tenant cause hbase => exact hfirst hbase
  | directories cause hbase htenant => exact hsecond hbase htenant
  | file hbase htenant hrule hfile => exact (hsecond hbase htenant).set_file hrule hfile _

/-- The directory of another rule has the same entries. -/
theorem list_eq (h : Inserted t r result t') {tenant rule : String}
    (hother : ¬(tenant = r.tenantId ∧ rule = r.ruleId)) :
    t'.list [tenant, rule] = t.list [tenant, rule] := by
  have hbase : (t.ensure []).list [tenant, rule] = t.list [tenant, rule] := FileTree.list_ensure (by simp)
  have htenant : (withTenant t r).list [tenant, rule] = t.list [tenant, rule] :=
    (FileTree.list_ensure (by simp)).trans hbase
  have hrule : (withDirectories t r).list [tenant, rule] = t.list [tenant, rule] :=
    (FileTree.list_ensure (by simp)).trans htenant
  cases h with
  | nothing cause => rfl
  | base cause => exact hbase
  | tenant cause => exact htenant
  | directories cause => exact hrule
  | file =>
    refine (FileTree.list_set ?_ _).trans hrule
    intro heq
    simp only [filePath, List.dropLast_concat, List.cons.injEq, and_true] at heq
    exact hother ⟨heq.1.symm, heq.2.symm⟩

end Inserted

theorem find_rule (t : FileTree) (tenant rule : String) :
    t.find [tenant, rule] =
      match t.refusal? [tenant, rule] with
      | some e => .error e
      | none =>
        match t.get? [] with
        | none => .ok none
        | some (.file _) => .error .notADirectory
        | some .binary => .error .notADirectory
        | some .directory =>
          if FileTree.isTooLong tenant then .error .nameTooLong
          else
            match t.get? [tenant] with
            | none => .ok none
            | some (.file _) => .error .notADirectory
            | some .binary => .error .notADirectory
            | some .directory =>
              if FileTree.isTooLong rule then .error .nameTooLong else .ok (t.get? [tenant, rule]) :=
  rfl

theorem list_of_openDirectory {tenant rule : String} (h : ¬(Refused tenant ∨ Refused rule)) (limit : Option Nat) :
    list (.files t) tenant rule limit = (openDirectory t [tenant, rule]).map (cut limit ∘ listFiles) := by
  rw [list, listAll, ruleDirectory_of_not_refused h]
  change Except.map (cut limit) (do return listFiles (← openDirectory t [tenant, rule])) = _
  cases openDirectory t [tenant, rule] <;> rfl

theorem list_of_no_entries (limit : Option Nat) :
    Except.map (cut limit ∘ listFiles) (.ok [] : Except StorageError _) = .ok [] := by
  cases limit <;> simp [Except.map, listFiles, cut]

theorem list_refused_iff (t : FileTree) (tenant rule : String) (limit : Option Nat) :
    (∃ details, list (.files t) tenant rule limit = .error (.invalidInput details)) ↔
      Refused tenant ∨ Refused rule := by
  by_cases h : Refused tenant ∨ Refused rule
  · obtain ⟨details, hdirectory⟩ := ruleDirectory_of_refused h
    exact iff_of_true ⟨details, by rw [list, listAll, hdirectory]; rfl⟩ h
  · refine iff_of_false ?_ h
    rintro ⟨details, hlist⟩
    rw [list_of_openDirectory h, openDirectory] at hlist
    split at hlist <;> cases hlist

/-- Whether the names of a tenant and a rule are looked at further when a record has been inserted, and one of them is
too long: that of the tenant, or that of a rule of the tenant of the record. -/
def LongBeside (r : ExecutionRecord) (tenant rule : String) : Prop :=
  FileTree.isTooLong tenant = true ∨ FileTree.isTooLong rule = true ∧ tenant = r.tenantId

/-- What the path of another rule names after an insertion: the same, unless one of its names is too long and has not
been looked at before there was a directory to look into. -/
theorem Inserted.find_eq {result : Except StorageError Unit} (h : Inserted t r result t') (ht : t.Rooted)
    {tenant rule : String} (hother : ¬(tenant = r.tenantId ∧ rule = r.ruleId)) :
    t'.find [tenant, rule] = t.find [tenant, rule] ∨
      LongBeside r tenant rule ∧ t.find [tenant, rule] = .ok none ∧ t'.find [tenant, rule] = .error .nameTooLong := by
  have hrefusal : t'.refusal? [tenant, rule] = t.refusal? [tenant, rule] := by
    rw [FileTree.refusal?, FileTree.refusal?, FileTree.text, FileTree.text, h.base_eq]
  have hrule : t'.get? [tenant, rule] = t.get? [tenant, rule] :=
    (h.sameOrMade (by simp [filePath])).resolve_right fun hmade => hother (by simpa [directoriesOf] using hmade.1)
  have hbelow (hnone : t.get? [tenant] = none) : t.get? [tenant, rule] = none := ht.get?_eq_none [tenant] hnone rule
  -- the directory of the tenant is the same or has been made; in the latter case the rule is looked at now
  have htenant :
      t'.get? [tenant] = t.get? [tenant] ∨
        tenant = r.tenantId ∧ t.get? [tenant] = none ∧ t'.get? [tenant] = some .directory := by
    refine (h.sameOrMade (by simp [filePath])).imp_right fun hmade => ⟨?_, hmade.2⟩
    simpa [directoriesOf] using hmade.1
  rw [find_rule, find_rule, hrefusal, hrule]
  cases t.refusal? [tenant, rule] with
  | some e => exact .inl rfl
  | none =>
    dsimp only
    rcases h.sameOrMade (show [] ≠ filePath r by simp [filePath]) with hsame | ⟨-, hnone, hmade⟩
    · rw [hsame]
      rcases htenant with htenant | ⟨htenant, hnone, hmade⟩
      · exact .inl (by rw [htenant])
      · rw [hnone, hmade, hbelow hnone]
        rcases t.get? [] with _ | ⟨text⟩ | _ | _
        · exact .inl rfl
        · exact .inl rfl
        · exact .inl rfl
        · dsimp only
          split
          · exact .inl rfl
          · split
            · next hlong => exact .inr ⟨.inr ⟨hlong, htenant⟩, rfl, rfl⟩
            · exact .inl rfl
    · have habsent : t.get? [tenant] = none := ht.get?_eq_none [] hnone tenant
      rw [hnone, hmade, hbelow habsent]
      dsimp only
      split
      · next hlong => exact .inr ⟨.inl hlong, rfl, rfl⟩
      · rcases htenant with htenant | ⟨htenant, -, hmade⟩
        · exact .inl (by rw [htenant, habsent])
        · rw [hmade]
          dsimp only
          split
          · next hlong => exact .inr ⟨.inr ⟨hlong, htenant⟩, rfl, rfl⟩
          · exact .inl rfl

theorem Inserted.openDirectory_eq {result : Except StorageError Unit} (h : Inserted t r result t') (ht : t.Rooted)
    {tenant rule : String} (hother : ¬(tenant = r.tenantId ∧ rule = r.ruleId)) :
    openDirectory t' [tenant, rule] = openDirectory t [tenant, rule] ∨
      LongBeside r tenant rule ∧ openDirectory t [tenant, rule] = .ok [] ∧
        openDirectory t' [tenant, rule] = .error (.inputOutput .nameTooLong) := by
  unfold openDirectory
  rw [h.list_eq hother]
  rcases h.find_eq ht hother with hsame | ⟨hlong, hbefore, hafter⟩
  · exact .inl (by rw [hsame])
  · exact .inr ⟨hlong, by rw [hbefore], by rw [hafter]⟩

/-- What an insertion makes of a tree. -/
structure Confined (t : FileTree) (r : ExecutionRecord) (result : Except StorageError Unit) (t' : FileTree) : Prop where
  /-- The record is refused just if one of its identifiers is, and then the tree is left as it is. -/
  refused : (∃ details, result = .error (.invalidInput details)) ↔ RefusedRecord r
  untouched : RefusedRecord r → t' = t
  /-- The path of the record leads three levels below the base directory, from wherever and whatever its text is. -/
  place : ¬RefusedRecord r → ∀ place base,
    FilePath.locate place (recordText base r) =
      FilePath.locate place base ++ [r.tenantId, r.ruleId, r.id ++ ending]
  /-- There the text of the record is written, or the file system refuses and there is what was there. -/
  file : ¬RefusedRecord r →
    result = .ok () ∧ t'.get? [r.tenantId, r.ruleId, r.id ++ ending] = some (.file r.fileText) ∨
      (∃ cause, result = .error (.inputOutput cause)) ∧
        t'.get? [r.tenantId, r.ruleId, r.id ++ ending] = t.get? [r.tenantId, r.ruleId, r.id ++ ending]
  /-- Elsewhere nothing changes but that the three directories above the file are made if nothing is there. -/
  elsewhere : ∀ path, path ≠ [r.tenantId, r.ruleId, r.id ++ ending] →
    FileTree.SameOrMade [[], [r.tenantId], [r.tenantId, r.ruleId]] t t' path

theorem confined_insertFile (t : FileTree) (r : ExecutionRecord) :
    Confined t r (insertFile t r).1 (insertFile t r).2 := by
  by_cases h : RefusedRecord r
  · obtain ⟨details, hinsert⟩ := insertFile_of_refused h t
    rw [hinsert]
    exact ⟨iff_of_true ⟨details, rfl⟩ h, fun _ => rfl, fun hnot => absurd h hnot, fun hnot => absurd h hnot,
      fun _ _ => .inl rfl⟩
  · have hinserted := inserted_insertFile h t
    refine ⟨iff_of_false ?_ h, fun hrefused => absurd hrefused h, locate_recordText, fun _ => hinserted.get?_filePath,
      fun _ => hinserted.sameOrMade⟩
    rintro ⟨details, hresult⟩
    rcases hinserted.get?_filePath with ⟨hok, -⟩ | ⟨⟨cause, hcause⟩, -⟩
    · rw [hresult] at hok
      cases hok
    · rw [hresult] at hcause
      cases hcause

theorem rooted_insertFile (ht : t.Rooted) (r : ExecutionRecord) : (insertFile t r).2.Rooted := by
  by_cases h : RefusedRecord r
  · obtain ⟨details, hinsert⟩ := insertFile_of_refused h t
    rw [hinsert]
    exact ht
  · exact (inserted_insertFile h t).rooted ht

theorem insertAll_rooted (ht : t.Rooted) (rs : List ExecutionRecord) :
    ∃ t', insertAll (.files t) rs = .files t' ∧ t'.Rooted := by
  induction rs generalizing t with
  | nil => exact ⟨t, rfl, ht⟩
  | cons r rest ih => exact ih (rooted_insertFile ht r)

/-- What is listed of one rule when a record of another one has been inserted. -/
theorem list_insertFile (ht : t.Rooted) {tenant rule : String} (hother : ¬(tenant = r.tenantId ∧ rule = r.ruleId))
    (limit : Option Nat) :
    list (.files (insertFile t r).2) tenant rule limit = list (.files t) tenant rule limit ∨
      LongBeside r tenant rule ∧ list (.files t) tenant rule limit = .ok [] ∧
        list (.files (insertFile t r).2) tenant rule limit = .error (.inputOutput .nameTooLong) := by
  by_cases hrecord : RefusedRecord r
  · obtain ⟨details, hinsert⟩ := insertFile_of_refused hrecord t
    exact .inl (by rw [hinsert])
  · by_cases hrule : Refused tenant ∨ Refused rule
    · obtain ⟨details, hdirectory⟩ := ruleDirectory_of_refused hrule
      refine .inl ?_
      simp only [list, listAll, hdirectory]
      rfl
    · simp only [list_of_openDirectory hrule]
      rcases (inserted_insertFile hrecord t).openDirectory_eq ht hother with hsame | ⟨hlong, hbefore, hafter⟩
      · exact .inl (by rw [hsame])
      · refine .inr ⟨hlong, ?_, by rw [hafter]; rfl⟩
        rw [hbefore]
        exact list_of_no_entries limit

/-- After whatever insertions, a record is confined to its own file, which no other record has; what is refused of a
record is refused when a rule is listed; and what is listed of another rule does not change, but for names too long for
the file system: that of a tenant is refused as soon as there is a base directory, and that of a rule as soon as there
is a directory of the tenant. -/
theorem insert_confined (ht : t.Rooted) (rs : List ExecutionRecord) (r : ExecutionRecord) :
    ∃ before result after, insertAll (.files t) rs = .files before ∧
      insert (.files before) r = (result, .files after, []) ∧ Confined before r result after ∧
      (∀ s, filePath s = filePath r ↔ identity s = identity r) ∧
      (∀ tenant rule limit, (∃ details, list (.files before) tenant rule limit = .error (.invalidInput details)) ↔
        Refused tenant ∨ Refused rule) ∧
      ∀ tenant rule limit, ¬(tenant = r.tenantId ∧ rule = r.ruleId) →
        list (.files after) tenant rule limit = list (.files before) tenant rule limit ∨
          (FileTree.isTooLong tenant = true ∨ FileTree.isTooLong rule = true ∧ tenant = r.tenantId) ∧
            list (.files before) tenant rule limit = .ok [] ∧
            list (.files after) tenant rule limit = .error (.inputOutput .nameTooLong) := by
  obtain ⟨before, hbefore, hrooted⟩ := insertAll_rooted ht rs
  refine ⟨before, (insertFile before r).1, (insertFile before r).2, hbefore, rfl, confined_insertFile before r,
    fun s => ⟨identity_of_filePath, fun heq => ?_⟩, list_refused_iff before,
    fun tenant rule limit hother => list_insertFile hrooted hother limit⟩
  obtain ⟨htenant, hrule, hid⟩ := Prod.mk.inj heq |>.imp_right Prod.mk.inj
  rw [filePath, filePath, htenant, hrule, hid]

theorem not_refused_of_all {value : String} (hne : value ≠ "") (h : value.toList.all Char.isAlphanum = true) :
    ¬Refused value := by
  have hmem (c : Char) (hc : c.isAlphanum = false) : c ∉ value.toList := fun hin => by
    rw [List.all_eq_true.1 h c hin] at hc
    cases hc
  unfold Refused
  rintro (hempty | rfl | rfl | hslash | hback)
  · exact hne hempty
  · exact hmem '.' rfl (by decide)
  · exact hmem '.' rfl (by decide)
  · exact hmem '/' rfl hslash
  · exact hmem '\\' rfl hback

theorem not_refused_ran (id : String) (seconds : Int) (hid : ¬Refused id) : ¬RefusedRecord (ran id seconds) := by
  have htenant : ¬Refused "t" := not_refused_of_all (by decide) (by decide)
  have hrule : ¬Refused "r" := not_refused_of_all (by decide) (by decide)
  exact not_or.2 ⟨not_or.2 ⟨htenant, hrule⟩, hid⟩

/-- The second of two runs gets a file of its own, and what is listed of another rule of the tenant stays the same. -/
theorem insert_second_confined :
    FileTree.Rooted {} ∧ ¬RefusedRecord (ran "e2" 60) ∧ ∃ before result after,
      insertAll (.files {}) [ran "e1" 0] = .files before ∧
      insert (.files before) (ran "e2" 60) = (result, .files after, []) ∧
      FilePath.locate [] (recordText "../logs/" (ran "e2" 60)) =
        FilePath.locate [] "../logs/" ++ ["t", "r", "e2.json"] ∧
      ∀ limit, list (.files after) "t" "s" limit = list (.files before) "t" "s" limit := by
  have hrecord : ¬RefusedRecord (ran "e2" 60) :=
    not_refused_ran "e2" 60 (not_refused_of_all (by decide) (by decide))
  have hrooted : FileTree.Rooted {} := FileTree.rooted_empty _
  obtain ⟨before, result, after, hbefore, hafter, hconfined, -, -, hlist⟩ :=
    insert_confined hrooted [ran "e1" 0] (ran "e2" 60)
  refine ⟨hrooted, hrecord, before, result, after, hbefore, hafter, hconfined.place hrecord [] _, fun limit => ?_⟩
  refine (hlist "t" "s" limit (by decide)).resolve_right fun hlong => ?_
  exact absurd hlong.1 (by decide)

/-- A name that is too long is refused when a record has been inserted, but not before. -/
theorem list_of_long {tenant rule : String} (hnames : ¬(Refused tenant ∨ Refused rule))
    (hpath : FileTree.refusal? {} [tenant, rule] = none) (limit : Option Nat) :
    list (.files {}) tenant rule limit = .ok [] ∧
    ∃ after, insert (.files {}) (ran "e1" 0) = (.ok (), .files after, []) ∧
      (LongBeside (ran "e1" 0) tenant rule →
        list (.files after) tenant rule limit = .error (.inputOutput .nameTooLong)) := by
  have hrecord : ¬RefusedRecord (ran "e1" 0) := not_refused_ran "e1" 0 (not_refused_of_all (by decide) (by decide))
  obtain ⟨after, hinsert, hholds⟩ :=
    (Holds.bare roomy_default (FileTree.bare_empty _)).insert (by simp) (storable_runs _ List.mem_cons_self)
  have hbase : after.base = "." := by
    have hsame := (inserted_insertFile hrecord {}).base_eq
    rwa [hinsert] at hsame
  have hroot : after.get? [] = some .directory := hholds.made (ran "e1" 0) (by simp) [] (by simp [directoriesOf])
  have hrefusal : after.refusal? [tenant, rule] = none := by
    rw [← hpath, FileTree.refusal?, FileTree.text, hbase]
    rfl
  refine ⟨?_, after, by rw [insert, hinsert], fun hlong => ?_⟩
  · rw [list_of_openDirectory hnames, openDirectory, find_rule, hpath]
    exact list_of_no_entries limit
  · rw [list_of_openDirectory hnames, openDirectory, find_rule, hrefusal, hroot]
    rcases hlong with htenant | ⟨hrule, rfl⟩
    · rw [htenant]
      rfl
    · have hfirst := hholds.made (ran "e1" 0) (by simp) [(ran "e1" 0).tenantId] (by simp [directoriesOf])
      have hshort : FileTree.isTooLong (ran "e1" 0).tenantId = false := by decide
      rw [hfirst, hshort, hrule]
      rfl

def longName : String := String.ofList (List.replicate 256 'x')

theorem utf8ByteSize_longName : longName.utf8ByteSize = 256 := by decide +kernel

theorem eq_of_mem_longName {c : Char} (h : c ∈ longName.toList) : c = 'x' := by
  have hchars : longName.toList = List.replicate 256 'x' := String.toList_ofList
  exact List.eq_of_mem_replicate (hchars ▸ h)

theorem isTooLong_longName : FileTree.isTooLong longName = true := by
  rw [FileTree.isTooLong, utf8ByteSize_longName]
  rfl

theorem longName_ne {short : String} (h : FileTree.isTooLong short = false) : longName ≠ short := by
  rintro rfl
  rw [isTooLong_longName] at h
  cases h

theorem not_refused_longName : ¬Refused longName := by
  refine not_refused_of_all (longName_ne (by decide)) (List.all_eq_true.2 fun c hc => ?_)
  rw [eq_of_mem_longName hc]
  rfl

/-- The path of a rule is not too much for the system if its names are the long one and short ones. -/
theorem refusal?_longName {path : FilePath} (hpath : path.length ≤ 2)
    (h : ∀ name ∈ path, name = longName ∨ name = "t" ∨ name = "r") : FileTree.refusal? {} path = none := by
  have hnames (name : String) (hname : name ∈ path) : '\x00' ∉ name.toList ∧ name.utf8ByteSize ≤ 256 := by
    rcases h name hname with rfl | rfl | rfl
    · exact ⟨fun hnul => absurd (eq_of_mem_longName hnul) (by decide), utf8ByteSize_longName.le⟩
    · decide
    · decide
  have hbase : ".".utf8ByteSize = 1 := by decide
  refine FileTree.refusal?_eq_none_of_le (by decide) (fun name hname => (hnames name hname).1)
    (fun name hname => (hnames name hname).2) ?_
  dsimp only
  omega

/-- What is listed of a rule with a name of 256 bytes, and what is listed of a tenant with such a name, is not the same
before and after the first insertion of a record of another rule. -/
theorem list_of_long_name_changed :
    ∃ after, insert (.files {}) (ran "e1" 0) = (.ok (), .files after, []) ∧
      ∀ tenant rule, (tenant, rule) = ("t", longName) ∨ (tenant, rule) = (longName, "r") →
        ¬(tenant = (ran "e1" 0).tenantId ∧ rule = (ran "e1" 0).ruleId) ∧
        list (.files {}) tenant rule none = .ok [] ∧
        list (.files after) tenant rule none = .error (.inputOutput .nameTooLong) := by
  have htenant : ¬Refused "t" := not_refused_of_all (by decide) (by decide)
  have hrule : ¬Refused "r" := not_refused_of_all (by decide) (by decide)
  obtain ⟨hbefore, after, hinsert, hafter⟩ :=
    list_of_long (not_or.2 ⟨htenant, not_refused_longName⟩) (refusal?_longName (by decide) (by simp)) none
  obtain ⟨hbefore', after', hinsert', hafter'⟩ :=
    list_of_long (not_or.2 ⟨not_refused_longName, hrule⟩) (refusal?_longName (by decide) (by simp)) none
  obtain rfl : after = after' := by
    have heq := hinsert.symm.trans hinsert'
    simpa using heq
  refine ⟨after, hinsert, ?_⟩
  rintro tenant rule (hnames | hnames)
  · obtain ⟨rfl, rfl⟩ := Prod.mk.inj hnames
    exact ⟨fun h => longName_ne (by decide) h.2, hbefore, hafter (.inr ⟨isTooLong_longName, rfl⟩)⟩
  · obtain ⟨rfl, rfl⟩ := Prod.mk.inj hnames
    exact ⟨fun h => longName_ne (by decide) h.1, hbefore', hafter' (.inl isTooLong_longName)⟩

end RuleFlow.ExecutionLog
