import RuleFlow.Engine.FanOut
/-! # What a fan-out comes to

Jobs that end as soon as they have started are run one after the other, in their order: `runAll_eq_mapM`. -/
namespace RuleFlow.FanOut

variable {ι ρ σ : Type} {run : ι → StateM σ ρ} {permits : Nat}

theorem mapM_nil_eq {α β : Type} (f : α → StateM σ β) (world : σ) : [].mapM f world = ([], world) := rfl

theorem mapM_cons_eq {α β : Type} (f : α → StateM σ β) (a : α) (as : List α) (world : σ) :
    (a :: as).mapM f world =
      ((f a world).1 :: (as.mapM f (f a world).2).1, (as.mapM f (f a world).2).2) := by
  rw [List.mapM_cons]
  rfl

def runNumbered (run : ι → StateM σ ρ) (job : Nat × ι) : StateM σ (Nat × ρ) := do
  return (job.1, ← run job.2)

theorem drive_of_finish {s t : FanOut ι ρ} {job : Nat × ι} {rest : List (Nat × ι)} {world : σ}
    (hrunning : s.running = job :: rest) (h : s.finish job.1 (run job.2 world).1 = some t) :
    drive run s world = drive run t (run job.2 world).2 := by
  rcases hrun : run job.2 world with ⟨result, world'⟩
  rw [hrun] at h
  conv => lhs; rw [drive]
  simp only [hrunning, hrun]
  split
  · rename_i t' h'
    rw [h] at h'
    cases h'
    rfl
  · rename_i h'
    rw [h] at h'
    cases h'

theorem drive_of_start {s t : FanOut ι ρ} (hrunning : s.running = []) (h : s.start = some t) (world : σ) :
    drive run s world = drive run t world := by
  conv => lhs; rw [drive]
  simp only [hrunning]
  split
  · rename_i t' h'
    rw [h] at h'
    cases h'
    rfl
  · rename_i h'
    rw [h] at h'
    cases h'

theorem drive_of_end {s : FanOut ι ρ} (hrunning : s.running = []) (h : s.start = none) (world : σ) :
    drive run s world = (s, world) := by
  rw [drive]
  simp only [hrunning]
  split
  · rename_i t' h'
    rw [h] at h'
    cases h'
  · rfl

theorem drive_cons (hpermits : 0 < permits) (job : Nat × ι) (rest : List (Nat × ι)) (finished : List (Nat × ρ))
    (world : σ) : drive run ⟨permits, job :: rest, [], finished⟩ world =
      drive run ⟨permits, rest, [], finished ++ [(job.1, (run job.2 world).1)]⟩ (run job.2 world).2 := by
  obtain ⟨free, rfl⟩ := Nat.exists_eq_add_of_lt hpermits
  rw [Nat.zero_add]
  have hstart : start (⟨free + 1, job :: rest, [], finished⟩ : FanOut ι ρ) = some ⟨free, rest, [job], finished⟩ := rfl
  rw [drive_of_start rfl hstart]
  exact drive_of_finish rfl (by simp [finish])

theorem drive_waiting (hpermits : 0 < permits) (waiting : List (Nat × ι)) (finished : List (Nat × ρ)) (world : σ) :
    drive run ⟨permits, waiting, [], finished⟩ world =
      (⟨permits, [], [], finished ++ (waiting.mapM (runNumbered run) world).1⟩,
        (waiting.mapM (runNumbered run) world).2) := by
  induction waiting generalizing finished world with
  | nil => rw [drive_of_end rfl rfl, mapM_nil_eq, List.append_nil]
  | cons job rest ih =>
    rw [drive_cons hpermits, ih, mapM_cons_eq, List.append_assoc]
    rfl

theorem mapM_runNumbered (jobs : List (Nat × ι)) (world : σ) :
    jobs.mapM (runNumbered run) world =
      ((jobs.map (·.1)).zip ((jobs.map (·.2)).mapM run world).1, ((jobs.map (·.2)).mapM run world).2) := by
  induction jobs generalizing world with
  | nil => rfl
  | cons job rest ih =>
    rw [mapM_cons_eq, ih, List.map_cons, List.map_cons, mapM_cons_eq]
    rfl

theorem length_mapM {α β : Type} (f : α → StateM σ β) (as : List α) (world : σ) :
    (as.mapM f world).1.length = as.length := by
  induction as generalizing world with
  | nil => rfl
  | cons a as ih => rw [mapM_cons_eq, List.length_cons, ih, List.length_cons]

theorem runAll_eq_mapM (limit : Nat) (jobs : List ι) (run : ι → StateM σ ρ) :
    runAll limit jobs run = jobs.mapM run := by
  funext world
  have hdrive : drive run (ofJobs limit jobs) world = _ :=
    drive_waiting (Nat.lt_of_lt_of_le Nat.one_pos (Nat.le_max_left 1 limit)) _ [] world
  have hjobs : (((List.range jobs.length).zip jobs).map (·.2)) = jobs := by
    rw [← List.unzip_snd, List.unzip_zip (by simp)]
  have hnumbers : (((List.range jobs.length).zip jobs).map (·.1)) = List.range jobs.length := by
    rw [← List.unzip_fst, List.unzip_zip (by simp)]
  rw [mapM_runNumbered, hjobs, hnumbers, List.nil_append] at hdrive
  have hsorted : ((List.range jobs.length).zip (jobs.mapM run world).1).Pairwise fun a b => a.1 ≤ b.1 := by
    have hrange : (List.range jobs.length).Pairwise (· ≤ ·) := List.pairwise_le_range
    refine List.Pairwise.of_map Prod.fst (fun _ _ h => h) ?_
    rw [← List.unzip_fst, List.unzip_zip (by simp [length_mapM])]
    exact hrange
  have hresults : (⟨max 1 limit, [], [], (List.range jobs.length).zip (jobs.mapM run world).1⟩ : FanOut ι ρ).results =
      (jobs.mapM run world).1 := by
    unfold results
    rw [List.mergeSort_of_pairwise (by simpa using hsorted), ← List.unzip_snd, List.unzip_zip (by simp [length_mapM])]
  have hrun : runAll limit jobs run world =
      ((drive run (ofJobs limit jobs) world).1.results, (drive run (ofJobs limit jobs) world).2) := rfl
  rw [hrun, hdrive]
  exact Prod.ext hresults rfl

end RuleFlow.FanOut
