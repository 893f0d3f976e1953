import RuleFlow.Proofs.Asset.Writes
/-! # Turns of two walks

Two walks take turns in any order.  Each reads an asset in its first turn, and sets an attribute in each of its later
ones.  What they do is a history, and of its updates some survive if each of them hands over all attributes that its
walk knows of: `surviving`. -/
namespace RuleFlow.Walk

inductive Side | first | second
  deriving DecidableEq

def Side.other : Side → Side
  | .first => .second
  | .second => .first

structure Setting where
  node : String
  name : String
  value : Json

def Setting.write (v : Setting) : Write := .setAttribute v.name v.value

structure Setter where
  rule : String
  payload : Json
  settings : List Setting

inductive Turn
  | read (side : Side)
  | update (side : Side) (v : Setting)

/-- What a walk does once it has had some turns: it reads the asset, then makes its visits, then nothing. -/
def Setter.turn? (walk : Setter) (side : Side) : Nat → Option Turn
  | 0 => some (.read side)
  | n + 1 => walk.settings[n]?.map (.update side)

/-- What the walks do in some turns, after they have had others. -/
def historyFrom (walks : Side → Setter) : List Side → List Side → List Turn
  | _, [] => []
  | made, side :: rest =>
    ((walks side).turn? side (made.count side)).toList ++ historyFrom walks (made ++ [side]) rest

def history (walks : Side → Setter) (turns : List Side) : List Turn := historyFrom walks [] turns

namespace Turn

def isRead (side : Side) : Turn → Bool
  | .read s => s = side
  | .update _ _ => false

def update? (side : Side) : Turn → Option Setting
  | .read _ => none
  | .update s v => if s = side then some v else none

def side : Turn → Side
  | .read s => s
  | .update s _ => s

def updater? : Turn → Option Side
  | .read _ => none
  | .update s _ => some s

end Turn

def updates (side : Side) (h : List Turn) : List Setting := h.filterMap (Turn.update? side)

def lastValue? (name : String) (vs : List Setting) : Option Json :=
  (vs.filterMap fun v => v.write.attribute? name).getLast?

/-- What was done before a walk read the asset. -/
def untilRead (side : Side) (h : List Turn) : List Turn := h.takeWhile fun t => !t.isRead side

def lastUpdater? (h : List Turn) : Option Side := (h.filterMap Turn.updater?).getLast?

/-- The updates that are left: those that the other walk made before the last updater read the asset, and all of the
last updater. -/
def surviving (h : List Turn) : List Setting :=
  match lastUpdater? h with
  | none => []
  | some side => updates side.other (untilRead side h) ++ updates side h

variable {side s : Side} {h : List Turn} {v : Setting}

theorem historyFrom_concat (walks : Side → Setter) (made turns : List Side) (side : Side) :
    historyFrom walks made (turns ++ [side]) =
      historyFrom walks made turns ++ ((walks side).turn? side ((made ++ turns).count side)).toList := by
  induction turns generalizing made with
  | nil => simp [historyFrom]
  | cons s turns ih => simp [historyFrom, ih]

theorem history_concat (walks : Side → Setter) (turns : List Side) (side : Side) : history walks (turns ++ [side]) =
    history walks turns ++ ((walks side).turn? side (turns.count side)).toList :=
  historyFrom_concat walks [] turns side

theorem Side.eq_other_of_ne (hne : s ≠ side) : s = side.other := by
  cases s <;> cases side <;> first | rfl | exact absurd rfl hne

theorem updates_concat_read : updates s (h ++ [.read side]) = updates s h := by
  simp [updates, List.filterMap_append, Turn.update?]

theorem updates_concat_update :
    updates s (h ++ [.update side v]) = updates s h ++ if side = s then [v] else [] := by
  by_cases hs : side = s <;> simp [updates, List.filterMap_append, Turn.update?, hs]

theorem lastValue?_append {name : String} {us vs : List Setting} :
    lastValue? name (us ++ vs) = (lastValue? name vs).or (lastValue? name us) := by
  rw [lastValue?, List.filterMap_append, List.getLast?_append]
  rfl

theorem lastUpdater?_concat_update : lastUpdater? (h ++ [.update side v]) = some side := by
  simp [lastUpdater?, List.filterMap_append, Turn.updater?]

theorem Turn.isRead_of_ne {t : Turn} (ht : t.side ≠ side) : t.isRead side = false := by
  cases t with
  | read s => exact decide_eq_false ht
  | update s v => rfl

theorem Turn.update?_of_ne {t : Turn} (ht : t.side ≠ side) : t.update? side = none := by
  cases t with
  | read s => rfl
  | update s v => exact if_neg ht

/-- What was done before a walk read the asset stays the same once it has. -/
theorem untilRead_concat {t : Turn} (hread : ∃ t ∈ h, t.isRead side = true) :
    untilRead side (h ++ [t]) = untilRead side h := by
  induction h with
  | nil => simp at hread
  | cons u h ih =>
    cases hu : u.isRead side with
    | true => simp [untilRead, hu]
    | false =>
      have hlater : ∃ t ∈ h, t.isRead side = true := by simpa [hu] using hread
      simpa [untilRead, hu] using ih hlater

theorem untilRead_concat_read (hread : ∀ t ∈ h, t.isRead side = false) :
    untilRead side (h ++ [.read side]) = h := by
  rw [untilRead, List.takeWhile_append_of_pos fun t ht => by simp [hread t ht]]
  simp [Turn.isRead]

theorem updates_eq_nil_of_sublist {h' : List Turn} (hsub : h'.Sublist h) (hnone : updates side h = []) :
    updates side h' = [] := by
  have hle := (hsub.filterMap (Turn.update? side)).length_le
  rw [updates] at hnone
  rw [hnone] at hle
  exact List.eq_nil_of_length_eq_zero (Nat.le_zero.1 hle)

theorem updates_ne_nil (hlast : lastUpdater? h = some side) : updates side h ≠ [] := by
  obtain ⟨t, ht, hside⟩ := List.mem_filterMap.1 (List.mem_of_getLast? hlast)
  cases t with
  | read s => cases hside
  | update s v =>
    obtain rfl : s = side := Option.some.inj hside
    exact List.ne_nil_of_mem (List.mem_filterMap.2 ⟨_, ht, if_pos rfl⟩)

theorem updates_of_lastUpdater?_eq_none (hlast : lastUpdater? h = none) : updates side h = [] := by
  rw [lastUpdater?, List.getLast?_eq_none_iff, List.filterMap_eq_nil_iff] at hlast
  rw [updates, List.filterMap_eq_nil_iff]
  intro t ht
  cases t with
  | read s => rfl
  | update s v => exact nomatch hlast _ ht

/-- As long as a walk has not made an update, all those of the other one are left. -/
theorem surviving_of_updates_eq_nil (hnone : updates side h = []) : surviving h = updates side.other h := by
  unfold surviving
  cases hlast : lastUpdater? h with
  | none => exact (updates_of_lastUpdater?_eq_none hlast).symm
  | some s =>
    -- the last updater is then the other walk, and before it read the asset there were no updates either
    have hne : s ≠ side := fun heq => updates_ne_nil hlast (heq ▸ hnone)
    obtain rfl := Side.eq_other_of_ne hne
    have hother : side.other.other = side := by cases side <;> rfl
    have hbefore : updates side (untilRead side.other h) = [] :=
      updates_eq_nil_of_sublist (List.takeWhile_sublist _) hnone
    dsimp only
    rw [hother, hbefore, List.nil_append]

theorem surviving_concat_update (hread : ∃ t ∈ h, t.isRead side = true) :
    surviving (h ++ [.update side v]) = updates side.other (untilRead side h) ++ updates side h ++ [v] := by
  rw [surviving, lastUpdater?_concat_update]
  simp only [untilRead_concat hread, updates_concat_update, if_true, List.append_assoc]

theorem surviving_concat_read (hnone : updates side h = []) :
    surviving (h ++ [.read side]) = surviving h := by
  rw [surviving_of_updates_eq_nil hnone, surviving_of_updates_eq_nil (by rw [updates_concat_read, hnone]),
    updates_concat_read]

end RuleFlow.Walk
