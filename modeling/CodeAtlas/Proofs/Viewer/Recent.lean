import CodeAtlas.Viewer.Settings
import Mathlib.Data.List.Induction

/-!
# Payloads opened lately

A payload that is opened moves to the front of the list, and then the list is
cut.  What is cut off lies behind all that is kept, and moving a payload to the
front takes at most one place away behind it, so cutting after every payload is
the same as cutting once.  Without the cut the list holds every place once, the
one opened last first.
-/

namespace CodeAtlas

namespace PathName

variable {paths : List PathName}

theorem same_comm (a b : PathName) : a.same b = b.same a :=
  Bool.beq_comm

/-- No two paths name the same place. -/
def Distinct (paths : List PathName) : Prop :=
  paths.Pairwise fun a b => a.same b = false

instance (paths : List PathName) : Decidable (Distinct paths) :=
  inferInstanceAs (Decidable (List.Pairwise _ _))

/-- The paths that do not name the place of a path. -/
def without (paths : List PathName) (path : PathName) : List PathName :=
  paths.filter fun other => !other.same path

theorem without_cons (first : PathName) (rest : List PathName) (path : PathName) :
    without (first :: rest) path =
      if first.same path then without rest path else first :: without rest path := by
  cases named : first.same path <;> simp [without, named]

theorem without_append (paths others : List PathName) (path : PathName) :
    without (paths ++ others) path = without paths path ++ without others path :=
  List.filter_append paths others

theorem without_congr {a b : PathName} (named : a.same b = true) (paths : List PathName) :
    without paths a = without paths b := by
  simp only [without, same, eq_of_beq named]

theorem Distinct.without (distinct : Distinct paths) (path : PathName) :
    Distinct (PathName.without paths path) :=
  List.Pairwise.filter _ distinct

/-- The first path of a list is missing in what follows it. -/
theorem Distinct.without_rest {first : PathName} {rest : List PathName}
    (distinct : Distinct (first :: rest)) : PathName.without rest first = rest := by
  apply List.filter_eq_self.mpr
  intro other mem
  rw [same_comm, (List.pairwise_cons.mp distinct).1 other mem]
  rfl

/-- The list with a path at its front and nowhere else. -/
def moveToFront (paths : List PathName) (path : PathName) : List PathName :=
  path :: without paths path

theorem Distinct.moveToFront (distinct : Distinct paths)
    (path : PathName) : Distinct (moveToFront paths path) := by
  apply List.Pairwise.cons
  · intro other mem
    rw [same_comm]
    simpa using (List.mem_filter.mp mem).2
  · exact distinct.without path

/-! ## Cutting the list -/

/-- Only one path of a list names a given place, so leaving it out shortens the
list by one at most. -/
theorem Distinct.length_le_without (distinct : Distinct paths)
    (path : PathName) : paths.length ≤ (PathName.without paths path).length + 1 := by
  induction paths with
  | nil => simp
  | cons first rest ih =>
    rw [without_cons]
    split
    · next named =>
        rw [← without_congr named, distinct.without_rest]
        exact Nat.le_refl _
    · have shorter := ih (List.pairwise_cons.mp distinct).2
      simpa using shorter

/-- A cut before a path moves to the front does not show after the cut that
follows. -/
theorem Distinct.take_moveToFront_take (distinct : Distinct paths) (path : PathName) (limit : ℕ) :
    (PathName.moveToFront (paths.take limit) path).take limit =
      (PathName.moveToFront paths path).take limit := by
  cases limit with
  | zero => simp
  | succ limit =>
    rw [PathName.moveToFront, PathName.moveToFront, List.take_succ_cons, List.take_succ_cons]
    -- If something is cut off, what is kept is long enough; else nothing changes.
    rcases Nat.lt_or_ge limit paths.length with longer | shorter
    · have kept : Distinct (paths.take (limit + 1)) :=
        List.Pairwise.sublist (List.take_sublist _ _) distinct
      have enough := kept.length_le_without path
      rw [List.length_take, Nat.min_eq_left longer, Nat.succ_le_succ_iff] at enough
      conv_rhs => rw [← List.take_append_drop (limit + 1) paths, without_append]
      rw [List.take_append_of_le_length enough]
    · rw [List.take_of_length_le (Nat.le_succ_of_le shorter)]

/-! ## Every place once -/

theorem eraseDupsBy_same_cons (first : PathName) (rest : List PathName) :
    (first :: rest).eraseDupsBy same = first :: (without rest first).eraseDupsBy same := by
  rw [List.eraseDupsBy_cons]
  simp [without]

/-- Leaving out a place before or after the repeats are left out is the same. -/
theorem without_eraseDupsBy_same (paths : List PathName) (path : PathName) :
    without (paths.eraseDupsBy same) path = (without paths path).eraseDupsBy same := by
  -- What follows the first path is a shorter list, but not the rest of this one.
  induction length : paths.length using Nat.strongRecOn generalizing paths with
  | _ count ih =>
    cases paths with
    | nil => rfl
    | cons first rest =>
      have shorter : (without rest first).length < count := by
        rw [← length, List.length_cons, Nat.lt_succ_iff]
        exact List.length_filter_le _ _
      rw [eraseDupsBy_same_cons, without_cons, without_cons, ih _ shorter _ rfl]
      split
      · next named =>
          have twice : without (without rest path) path = without rest path := by
            simp [without]
          rw [without_congr named, twice]
      · have swapped :
            without (without rest first) path = without (without rest path) first := by
          simp [without, List.filter_filter, Bool.and_comm]
        rw [eraseDupsBy_same_cons, swapped]

theorem Distinct.eraseDupsBy_same (distinct : Distinct paths) :
    paths.eraseDupsBy same = paths := by
  induction paths with
  | nil => rfl
  | cons first rest ih =>
    rw [eraseDupsBy_same_cons, distinct.without_rest, ih (List.pairwise_cons.mp distinct).2]

/-- Moving paths to the front one after the other, the last one ends up first and
every place is kept once. -/
theorem Distinct.foldl_moveToFront (distinct : Distinct paths) (opened : List PathName) :
    opened.foldl PathName.moveToFront paths = (opened.reverse ++ paths).eraseDupsBy same := by
  induction opened using List.reverseRecOn with
  | nil => exact distinct.eraseDupsBy_same.symm
  | append_singleton opened path ih =>
    rw [List.foldl_append, ih, List.reverse_append, List.reverse_singleton,
      List.singleton_append, List.cons_append, eraseDupsBy_same_cons,
      ← without_eraseDupsBy_same]
    rfl

theorem Distinct.foldl (distinct : Distinct paths)
    (opened : List PathName) : Distinct (opened.foldl PathName.moveToFront paths) := by
  induction opened generalizing paths with
  | nil => exact distinct
  | cons path opened ih => exact ih (distinct.moveToFront path)

end PathName

namespace ViewerSettings

open PathName (Distinct moveToFront)

variable {R : Type}

theorem recentPayloads_remember (settings : ViewerSettings R) (path : PathName) :
    (settings.remember path).recentPayloads =
      (moveToFront settings.recentPayloads path).take recentLimit :=
  rfl

/-- Cutting the list once at the end gives what cutting it every time gives. -/
theorem recentPayloads_foldl_remember (settings : ViewerSettings R)
    (distinct : Distinct settings.recentPayloads) {opened : List PathName}
    (nonempty : opened ≠ []) :
    (opened.foldl remember settings).recentPayloads =
      (opened.foldl moveToFront settings.recentPayloads).take recentLimit := by
  induction opened using List.reverseRecOn with
  | nil => exact absurd rfl nonempty
  | append_singleton opened path ih =>
    simp only [List.foldl_append, List.foldl_cons, List.foldl_nil, recentPayloads_remember]
    -- Before the first payload is opened the list has not been cut.
    by_cases first : opened = []
    · rw [first]
      rfl
    · rw [ih first, (distinct.foldl opened).take_moveToFront_take]

theorem foldl_remember_eq (settings : ViewerSettings R) {opened : List PathName}
    (nonempty : opened ≠ []) :
    opened.foldl remember settings =
      { settings with
        recentPayloads := (opened.foldl remember settings).recentPayloads
        lastPayload := opened.getLast? } := by
  induction opened using List.reverseRecOn with
  | nil => exact absurd rfl nonempty
  | append_singleton opened path ih =>
    rw [List.foldl_append, List.foldl_cons, List.foldl_nil, List.getLast?_concat]
    by_cases first : opened = []
    · rw [first]
      rfl
    · rw [ih first]
      rfl

/-- After payloads were opened, the eight that are remembered are the first ones
of all that were ever there, the last one opened first and each place once, and
it does not matter that the list is cut every time.  The last payload is the one
opened last, and nothing else changes. -/
theorem remembers_latest (settings : ViewerSettings R)
    (distinct : Distinct settings.recentPayloads) (opened : List PathName)
    (nonempty : opened ≠ []) :
    opened.foldl remember settings =
        { settings with
          recentPayloads :=
            ((opened.reverse ++ settings.recentPayloads).eraseDupsBy PathName.same).take 8
          lastPayload := opened.getLast? } ∧
      (opened.foldl remember settings).recentPayloads =
        (opened.foldl moveToFront settings.recentPayloads).take 8 := by
  have recent := settings.recentPayloads_foldl_remember distinct nonempty
  constructor
  · rw [settings.foldl_remember_eq nonempty, recent, distinct.foldl_moveToFront]
    rfl
  · exact recent

/-- Of nine payloads one is opened again under another spelling after a new one:
both stand in front, and the last two are gone. -/
theorem remembers_latest_of_nine :
    let names := fun texts : List String => texts.map PathName.mk
    let settings := { (standard : ViewerSettings Float32) with
      recentPayloads := names ["a", "b", "c", "d/e", "f", "g", "h", "i", "j"] }
    let opened := names ["k", "d//e/"]
    Distinct settings.recentPayloads ∧ opened ≠ [] ∧
      (opened.foldl remember settings).recentPayloads =
        names ["d//e/", "k", "a", "b", "c", "f", "g", "h"] ∧
      (opened.foldl remember settings).lastPayload = some ⟨"d//e/"⟩ := by
  intro names settings opened
  have distinct : Distinct settings.recentPayloads := by decide +kernel
  have nonempty : opened ≠ [] := by decide
  rw [(remembers_latest settings distinct opened nonempty).1]
  exact ⟨distinct, nonempty, by decide +kernel, by decide +kernel⟩

end ViewerSettings

end CodeAtlas
