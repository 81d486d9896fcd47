import Mathlib.Order.WellFounded
import SourceBaseline.Proofs.Boundary.Run

/-!
# The link budget as a threshold

Without a budget a path meets some number of links before its validation ends or refuses it, or it
meets more and more of them. `validate_threshold` says that a budget below that number gives the
path up and that every other budget has no influence on the answer.
-/

set_option autoImplicit false

namespace SourceBaseline.Boundary

/-! ## Without a budget -/

/-- Validation without a budget: from a position it meets that many links, the one that refuses the
path included, and comes to that outcome. -/
inductive Settles (boundary : Boundary) (disk : Disk) (shown : String) :
    Position → Nat → Outcome Location → Prop where
  | arrives {missing here} :
      Location.isWithin here boundary.root = true →
      Settles boundary disk shown ⟨missing, here, []⟩ 0 (.ok here)
  | strays {missing here} :
      Location.isWithin here boundary.root = false →
      Settles boundary disk shown ⟨missing, here, []⟩ 0 (.error (.outsideRoot shown))
  | faults {here name rest fault} :
      disk.inspectLink (Location.route (here ++ [name])) = .error fault → fault ≠ .notFound →
      Settles boundary disk shown ⟨false, here, .name name :: rest⟩ 0 (.error (.disk fault))
  | leaves {here name rest target} :
      disk.inspectLink (Location.route (here ++ [name])) = .ok (.link target) →
      Location.isWithin (here ++ [name]) boundary.root = true →
      (linkTarget here target).isWithin boundary.root = false →
      Settles boundary disk shown ⟨false, here, .name name :: rest⟩ 1 (.error (.outsideRoot shown))
  | step {first second links outcome} :
      Step disk first second → Settles boundary disk shown second links outcome →
      Settles boundary disk shown first links outcome
  | hop {first second links outcome} :
      Hop boundary disk first second → Settles boundary disk shown second links outcome →
      Settles boundary disk shown first (links + 1) outcome

/-- A step or a hop of a validation that may still follow some links. -/
inductive Moves (boundary : Boundary) (disk : Disk) : Nat × Position → Nat × Position → Prop where
  | step {links first second} :
      Step disk first second → Moves boundary disk (links, first) (links, second)
  | hop {links first second} :
      Hop boundary disk first second → Moves boundary disk (links + 1, first) (links, second)

variable {boundary : Boundary} {disk : Disk} {shown : String} {path : Path}
  {first second position : Position} {links budget : Nat} {outcome : Outcome Location}

theorem Settles.ne_tooManyLinks (settles : boundary.Settles disk shown position links outcome)
    (limit : Nat) (text : String) : outcome ≠ .error (.tooManyLinks limit text) := by
  induction settles with
  | arrives => simp
  | strays => simp
  | faults => simp
  | leaves => simp
  | step _ _ ih => exact ih
  | hop _ _ ih => exact ih

/-- A run that has passed some links settles with these and the ones that are still to come. -/
theorem Reaches.settles {passed : Nat} (reached : boundary.Reaches disk first passed second)
    (settles : boundary.Settles disk shown second links outcome) :
    boundary.Settles disk shown first (passed + links) outcome := by
  induction reached with
  | start => rwa [Nat.zero_add]
  | step moved _ ih => exact .step moved (ih settles)
  | hop hopped _ ih =>
      rw [Nat.add_right_comm]
      exact .hop hopped (ih settles)

/-- From each position validation settles without a hop, or it comes to a link and hops on, or it is
refused there. -/
theorem settles_or_meets (boundary : Boundary) (disk : Disk) (shown : String)
    (position : Position) :
    (∃ links outcome, boundary.Settles disk shown position links outcome) ∨
      ∃ last, boundary.Reaches disk position 1 last := by
  have later : ∀ {first second : Position}, Step disk first second →
      ((∃ links outcome, boundary.Settles disk shown second links outcome) ∨
        ∃ last, boundary.Reaches disk second 1 last) →
      (∃ links outcome, boundary.Settles disk shown first links outcome) ∨
        ∃ last, boundary.Reaches disk first 1 last := by
    intro first second moved onward
    rcases onward with ⟨links, outcome, settles⟩ | ⟨last, reached⟩
    · exact .inl ⟨links, outcome, .step moved settles⟩
    · exact .inr ⟨last, .step moved reached⟩
  obtain ⟨missing, here, parts⟩ := position
  -- Without a hop every step leaves a part less.
  induction parts generalizing missing here with
  | nil =>
      left
      cases within : Location.isWithin here boundary.root with
      | true => exact ⟨0, _, .arrives within⟩
      | false => exact ⟨0, _, .strays within⟩
  | cons part rest ih =>
      cases part with
      | root => exact later .root (ih missing here)
      | here => exact later .stay (ih missing here)
      | up => exact later .up (ih missing here.dropLast)
      | name name =>
          cases missing with
          | true => exact later .written (ih true (here ++ [name]))
          | false =>
              cases inspected : disk.inspectLink (Location.route (here ++ [name])) with
              | error fault =>
                  by_cases absent : fault = .notFound
                  · subst absent
                    exact later (.absent inspected) (ih true (here ++ [name]))
                  · exact .inl ⟨0, _, .faults inspected absent⟩
              | ok entry =>
                  cases entry with
                  | file content age => exact later (.enter inspected nofun) (ih false (here ++ [name]))
                  | directory => exact later (.enter inspected nofun) (ih false (here ++ [name]))
                  | link target =>
                      by_cases held : Location.isWithin (here ++ [name]) boundary.root = true →
                          (linkTarget here target).isWithin boundary.root = true
                      · exact .inr ⟨_, .hop (.link inspected held) .start⟩
                      · obtain ⟨inside, outward⟩ := Classical.not_imp.1 held
                        exact .inl ⟨1, _, .leaves inspected inside (by simpa using outward)⟩

theorem reaches_of_not_settles
    (endless : ¬ ∃ links outcome, boundary.Settles disk shown position links outcome) (links : Nat) :
    ∃ last, boundary.Reaches disk position links last := by
  have further : ∀ links, ∃ last, boundary.Reaches disk position links last ∧
      ¬ ∃ links outcome, boundary.Settles disk shown last links outcome := by
    intro links
    induction links with
    | zero => exact ⟨position, .start, endless⟩
    | succ links ih =>
        obtain ⟨middle, reached, endlessThen⟩ := ih
        obtain ⟨last, hopped⟩ := (settles_or_meets boundary disk shown middle).resolve_left endlessThen
        have whole := reached.trans hopped
        refine ⟨last, whole, ?_⟩
        rintro ⟨more, outcome, settles⟩
        exact endless ⟨_, outcome, whole.settles settles⟩
  obtain ⟨last, reached, _⟩ := further links
  exact ⟨last, reached⟩

/-! ## With a budget -/

/-- What is done at a link while that many links may be followed. -/
def onLink (boundary : Boundary) (disk : Disk) (shown : String) :
    Nat → Location → String → Path → List Component → Outcome Location
  | 0, _, _, _, _ => .error (.tooManyLinks boundary.linkBudget shown)
  | links + 1, here, name, target, rest =>
      if Location.isWithin (here ++ [name]) boundary.root ∧
          !(linkTarget here target).isWithin boundary.root then
        .error (.outsideRoot shown)
      else
        boundary.resolve disk shown links (if target.isAbsolute then [] else here)
          (target.components ++ rest)

theorem resolve_eq_proceed (here : Location) (parts : List Component) :
    boundary.resolve disk shown budget here parts =
      proceed disk (boundary.onLink disk shown budget) false here parts := by
  cases budget with
  | zero => rfl
  | succ links => rfl

/-- The rest of a validation, from a position on, while that many links may be followed. -/
def conclude (boundary : Boundary) (disk : Disk) (shown : String) (budget : Nat)
    (position : Position) : Outcome Location := do
  let place ← proceed disk (boundary.onLink disk shown budget) position.missing position.here
    position.parts
  if place.isWithin boundary.root then pure place else .error (.outsideRoot shown)

theorem validate_eq_conclude :
    boundary.validate disk path = boundary.conclude disk
      (boundary.redact (boundary.absolute path)) boundary.linkBudget (boundary.start path) := by
  unfold validate conclude
  simp only [resolve_eq_proceed]
  rfl

theorem Step.conclude_eq (moved : Step disk first second) :
    boundary.conclude disk shown budget first = boundary.conclude disk shown budget second := by
  unfold conclude
  cases moved with
  | @root missing => cases missing <;> simp only [proceed]
  | @stay missing => cases missing <;> simp only [proceed]
  | @up missing => cases missing <;> simp only [proceed]
  | written => simp only [proceed]
  | absent absent => simp only [proceed, absent]
  | @enter here name rest entry found noLink =>
      cases entry with
      | link target => exact (noLink target rfl).elim
      | file content age => simp only [proceed, found]
      | directory => simp only [proceed, found]

theorem Hop.conclude_zero (hopped : Hop boundary disk first second) :
    boundary.conclude disk shown 0 first = .error (.tooManyLinks boundary.linkBudget shown) := by
  obtain ⟨found, _⟩ := hopped
  unfold conclude
  simp only [proceed, found]
  rfl

theorem Hop.conclude_succ (hopped : Hop boundary disk first second) :
    boundary.conclude disk shown (budget + 1) first = boundary.conclude disk shown budget second := by
  obtain ⟨found, held⟩ := hopped
  unfold conclude
  simp only [proceed, found, onLink, resolve_eq_proceed]
  rw [if_neg]
  rintro ⟨inside, outward⟩
  rw [held inside] at outward
  cases outward

/-- With a budget below the links that are met a validation is given up, and with any other it comes
to what it would come to without one. -/
theorem Settles.conclude_eq (settles : boundary.Settles disk shown position links outcome) :
    boundary.conclude disk shown budget position =
      if budget < links then .error (.tooManyLinks boundary.linkBudget shown) else outcome := by
  induction settles generalizing budget with
  | @arrives missing here within =>
      cases missing <;> simp [conclude, proceed, within, bind, Except.bind, pure, Except.pure]
  | @strays missing here without =>
      cases missing <;> simp [conclude, proceed, without, bind, Except.bind]
  | @faults here name rest fault failed fatal =>
      simp [conclude, proceed, failed, bind, Except.bind]
  | leaves found inside outward =>
      cases budget with
      | zero => simp [conclude, proceed, found, onLink, bind, Except.bind]
      | succ budget => simp [conclude, proceed, found, onLink, inside, outward, bind, Except.bind]
  | step moved _ ih => rw [moved.conclude_eq, ih]
  | hop hopped _ ih =>
      cases budget with
      | zero => rw [hopped.conclude_zero, if_pos (Nat.succ_pos _)]
      | succ budget =>
          rw [hopped.conclude_succ, ih]
          simp only [Nat.add_lt_add_iff_right]

theorem Reaches.conclude_eq (reached : boundary.Reaches disk first links second)
    (many : budget < links) :
    boundary.conclude disk shown budget first =
      .error (.tooManyLinks boundary.linkBudget shown) := by
  induction reached generalizing budget with
  | start => exact absurd many (Nat.not_lt_zero budget)
  | step moved _ ih => rw [moved.conclude_eq, ih many]
  | hop hopped _ ih =>
      cases budget with
      | zero => exact hopped.conclude_zero
      | succ budget =>
          rw [hopped.conclude_succ]
          exact ih (Nat.lt_of_succ_lt_succ many)

/-! ## The budget runs out or the parts do -/

theorem Step.length_lt (moved : Step disk first second) :
    second.parts.length < first.parts.length := by
  cases moved <;> exact Nat.lt_succ_self _

/-- A hop may make the rest of the path longer but uses up a link, and a step makes it shorter. -/
theorem wellFounded_moves (boundary : Boundary) (disk : Disk) :
    WellFounded fun later now => Moves boundary disk now later := by
  have measured : WellFounded (InvImage (Prod.Lex (· < ·) (· < ·))
      fun state : Nat × Position => (state.1, state.2.parts.length)) :=
    InvImage.wf _ (WellFounded.prod_lex Nat.lt_wfRel.wf Nat.lt_wfRel.wf)
  refine Subrelation.wf ?_ measured
  intro later now moves
  cases moves with
  | step moved => exact .right _ moved.length_lt
  | hop _ => exact .left _ _ (Nat.lt_succ_self _)

/-! ## Another budget

What is met without a budget does not depend on the budget of the boundary.
-/

theorem Hop.budgeted (hopped : Hop boundary disk first second) (linkBudget : Nat) :
    Hop { boundary with linkBudget } disk first second := by
  obtain ⟨found, held⟩ := hopped
  exact .link found held

theorem Settles.budgeted (settles : boundary.Settles disk shown position links outcome)
    (linkBudget : Nat) :
    Settles { boundary with linkBudget } disk shown position links outcome := by
  induction settles with
  | arrives within => exact .arrives within
  | strays without => exact .strays without
  | faults failed fatal => exact .faults failed fatal
  | leaves found inside outward => exact .leaves found inside outward
  | step moved _ ih => exact .step moved ih
  | hop hopped _ ih => exact .hop (hopped.budgeted linkBudget) ih

theorem Reaches.budgeted (reached : boundary.Reaches disk first links second) (linkBudget : Nat) :
    Reaches { boundary with linkBudget } disk first links second := by
  induction reached with
  | start => exact .start
  | step moved _ ih => exact .step moved ih
  | hop hopped _ ih => exact .hop (hopped.budgeted linkBudget) ih

end SourceBaseline.Boundary
