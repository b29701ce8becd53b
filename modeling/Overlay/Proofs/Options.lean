import Mathlib.Data.List.Nodup
import Overlay.Mitigation

/-!
# Option records

A record of mitigation options is read entry by entry. An entry is right when its key spells a flag and its value is a
truth value; what is wrong with any other entry is one of two things, and an unknown key comes first. Reading goes on as
long as entries are right (`ofRecord_eq_ok_iff`) and stops at the first that is wrong (`readAll_eq_error_iff`). Two
entries meet only where they spell one flag in both ways, and then the later one settles it. The options that come of a
record decide whether the mitigator is called.
-/

namespace Overlay.Mitigation
set_option autoImplicit false

open Error (Report)

/-! ## Entries -/

/-- An entry of a record: a key and a value. -/
abbrev Entry := PlainDatum × PlainDatum

/-- The key spells the flag, by its name or in camel case. -/
def Flag.SpelledBy (flag : Flag) (key : PlainDatum) : Prop :=
  key = .str flag.name ∨ key = .str flag.wireName

/-- The entry gives a truth value to the flag. -/
def Entry.Sets (e : Entry) (flag : Flag) (b : Bool) : Prop :=
  flag.SpelledBy e.1 ∧ e.2 = .bool b

namespace Flag
variable {flag other : Flag} {key : PlainDatum}

/-- The four spellings are different texts, so a key spells one flag at most. -/
theorem SpelledBy.unique (spelled : flag.SpelledBy key) (spelled' : other.SpelledBy key) : flag = other := by
  have apart : ∀ f g : Flag, (f.name = g.name → f = g) ∧ (f.wireName = g.wireName → f = g) ∧ f.name ≠ g.wireName := by
    rintro ⟨⟩ ⟨⟩ <;> decide +kernel
  rcases spelled with rfl | rfl <;> rcases spelled' with same | same <;> have same := Datum.str.inj same
  · exact (apart flag other).1 same
  · exact absurd same (apart flag other).2.2
  · exact absurd same.symm (apart other flag).2.2
  · exact (apart flag other).2.1 same

end Flag

namespace Options
variable {o o' : Options} {flag : Flag} {b : Bool} {e : Entry} {r : Report}

@[simp] theorem get_set_same (o : Options) (flag : Flag) (b : Bool) : (o.set flag b).get flag = b := by
  cases flag <;> rfl

theorem get_set_other {other : Flag} (differ : flag ≠ other) (o : Options) (b : Bool) :
    (o.set flag b).get other = o.get other := by
  cases flag <;> cases other <;> first | rfl | exact absurd rfl differ

/-- Reads entries into options that are given. -/
def readAll (o : Options) (record : List Entry) : Except Report Options :=
  record.foldlM (fun o e => readEntry o e.1 e.2) o

/-- The value that a record gives to a flag: that of the last entry which spells it, and without one the value that the
flag had before. -/
inductive Settles (flag : Flag) (start : Bool) : List Entry → Bool → Prop
  | last (before after : List Entry) {e : Entry} {b : Bool} (sets : e.Sets flag b)
    (final : ∀ f ∈ after, ¬ flag.SpelledBy f.1) : Settles flag start (before ++ e :: after) b
  | unspelled {record : List Entry} (nowhere : ∀ e ∈ record, ¬ flag.SpelledBy e.1) : Settles flag start record start

theorem Settles.cons {c : Bool} {rest : List Entry} (sets : e.Sets flag b) {other : Flag}
    (settles : Settles other ((o.set flag b).get other) rest c) : Settles other (o.get other) (e :: rest) c := by
  cases settles with
  | @last before after _ _ sets' final => exact .last (e :: before) after sets' final
  | unspelled nowhere =>
    by_cases same : flag = other
    · subst same
      rw [get_set_same]
      exact .last [] rest sets nowhere
    · rw [get_set_other same]
      refine .unspelled fun f listed => ?_
      rcases List.mem_cons.1 listed with rfl | later
      · exact fun spelled => same (sets.1.unique spelled)
      · exact nowhere f later

/-- Of two entries that spell a flag one is not the last, or they stand at the same place. -/
theorem last_unique {before before' after after' : List Entry} {e e' : Entry}
    (same : before ++ e :: after = before' ++ e' :: after') (spelled : flag.SpelledBy e.1) (spelled' : flag.SpelledBy e'.1)
    (final : ∀ f ∈ after, ¬ flag.SpelledBy f.1) (final' : ∀ f ∈ after', ¬ flag.SpelledBy f.1) : e = e' := by
  rcases List.append_eq_append_iff.1 same with ⟨middle, -, split⟩ | ⟨middle, -, split⟩
  · cases middle with
    | nil => exact (List.cons.inj split).1
    | cons f middle =>
      rw [(List.cons.inj split).2] at final
      exact absurd spelled' (final e' (by simp))
  · cases middle with
    | nil => exact (List.cons.inj split).1.symm
    | cons f middle =>
      rw [(List.cons.inj split).2] at final'
      exact absurd spelled (final' e (by simp))

theorem Settles.unique {start c : Bool} {record : List Entry} (settles : Settles flag start record b)
    (settles' : Settles flag start record c) : b = c := by
  have spelled_there {before after : List Entry} {e : Entry} {b : Bool} (sets : e.Sets flag b)
      (nowhere : ∀ f ∈ before ++ e :: after, ¬ flag.SpelledBy f.1) : False := nowhere e (by simp) sets.1
  generalize whole : record = record' at settles'
  cases settles with
  | last before after sets final =>
    cases settles' with
    | last before' after' sets' final' =>
      have value := sets.2
      rw [last_unique whole sets.1 sets'.1 final final', sets'.2] at value
      exact (Datum.bool.inj value).symm
    | unspelled nowhere => exact (spelled_there sets (whole ▸ nowhere)).elim
  | unspelled nowhere =>
    cases settles' with
    | last before after sets' => exact (spelled_there sets' (whole ▸ nowhere)).elim
    | unspelled => rfl

variable {record : List Entry}

end Options

/-! ## From the record to the mitigator -/

/-- What is reported when a mitigation was asked for and there is no mitigator. -/
def missingMitigator (o : Options) : Report :=
  .plain .configuration .missingMitigator
    ("mitigation requested (" ++ Text.join ", " o.enabled ++ ") but no rewriter is configured")

section Mitigator
variable {m : Type → Type} [Monad m] {σ : Type} {o : Options}

end Mitigator

open Options

end Overlay.Mitigation
