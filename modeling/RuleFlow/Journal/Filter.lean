import RuleFlow.Journal
/-! # Filters of the journal

A filter says which entries are printed: from which level on, for all parts or for those whose path begins with a
given text.  Of the rules that match a part the one with the longest text counts. -/
namespace RuleFlow.Journal

/-- From which level on entries are printed; `none` prints nothing. -/
abbrev Threshold := Option Level

structure Directive where
  path : String
  threshold : Threshold
  deriving DecidableEq, Repr

abbrev Filter := List Directive

def thresholdNames : List (String × Threshold) :=
  [("off", none), ("error", some .error), ("warn", some .warn), ("info", some .info), ("debug", some .debug),
    ("trace", some .debug), ("0", none), ("1", some .error), ("2", some .warn), ("3", some .info),
    ("4", some .debug), ("5", some .debug)]

def threshold? (text : String) : Option Threshold := thresholdNames.lookup (text.map Char.toLower)

/-- Reads a rule: a threshold for all parts, a path with its threshold, or a path alone, which prints everything. -/
def Directive.parse (text : String) : Option Directive :=
  match text.splitOn "=" with
  | [path, name] => (threshold? name).map (⟨path, ·⟩)
  | [name] =>
    match threshold? name with
    | some threshold => some ⟨"", threshold⟩
    | none => some ⟨name, some .debug⟩
  | _ => none

/-- Reads a filter; rules that cannot be read are passed over, and without rules errors are printed. -/
def Filter.parse (text : String) : Filter :=
  match ((text.splitOn ",").filter (· ≠ "")).filterMap Directive.parse with
  | [] => [⟨"", some .error⟩]
  | rules => rules

/-- The better of two rules: the one with the longer text, of equally long ones the later. -/
def Directive.better (best : Option Directive) (d : Directive) : Option Directive :=
  match best with
  | some b => if b.path.length ≤ d.path.length then some d else some b
  | none => some d

def Filter.thresholdFor (f : Filter) (path : String) : Threshold :=
  match (f.filter fun d => d.path.toList.isPrefixOf path.toList).foldl Directive.better none with
  | some d => d.threshold
  | none => none

def Filter.shows (f : Filter) (e : Entry) : Bool :=
  match f.thresholdFor e.part.path with
  | some least => least.rank ≤ e.level.rank
  | none => false

end RuleFlow.Journal
