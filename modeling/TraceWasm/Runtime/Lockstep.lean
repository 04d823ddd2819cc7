import Mathlib.Data.Option.Defs
import TraceWasm.Runtime.Steps

/-!
# Machines in lockstep

Two machines over one store that take the same steps: a relation between their
configurations that every step keeps holds of whole runs, and what a run comes to on
one machine it comes to on the other. The second machine may have a bound that the
first has not; runs of the first that stay within it are the ones that are matched.
-/

namespace TraceWasm

/-! ## The instance beside its frames -/

namespace Instance

variable {frame frame' frame'' memory registry : Type}

/-- The instance with other frames. -/
def withFrame
    (inst : Instance frame memory registry) (other : frame') :
    Instance frame' memory registry where
  memory := inst.memory
  frame := other
  importRegistry := inst.importRegistry
  config := inst.config
  globalVals := inst.globalVals
  tableVals := inst.tableVals
  dataVals := inst.dataVals

@[simp] theorem frame_withFrame
    (inst : Instance frame memory registry) (other : frame') :
    (inst.withFrame other).frame = other := rfl

end Instance

/-! ## Lockstep -/

namespace Machine

section Lockstep

variable {memory registry : Type} {left right : Machine memory registry}

/-- Both go on, or both have ended. -/
inductive Progress.Matches
    (running : left.Configuration → right.Configuration → Prop)
    (ended : left.Outcome FuncCallError Unit → right.Outcome FuncCallError Unit → Prop) :
    left.Progress → right.Progress → Prop where
  | running {c : left.Configuration} {d : right.Configuration} (related : running c d) :
      Matches running ended (.running c) (.running d)
  | ended {outcome : left.Outcome FuncCallError Unit}
      {outcome' : right.Outcome FuncCallError Unit} (related : ended outcome outcome') :
      Matches running ended (.ended outcome) (.ended outcome')

/-- A weaker relation holds as well. -/
theorem Progress.Matches.mono
    {running running' : left.Configuration → right.Configuration → Prop}
    {ended : left.Outcome FuncCallError Unit → right.Outcome FuncCallError Unit → Prop}
    {progress : left.Progress} {progress' : right.Progress}
    (matched : Progress.Matches running ended progress progress')
    (weaken : ∀ c d, running c d → running' c d) :
    Progress.Matches running' ended progress progress' := by
  cases matched with
  | running related => exact .running (weaken _ _ related)
  | ended related => exact .ended related

variable {leftModule : left.Code} {rightModule : right.Code}
variable {entry : FuncIndex} {resultsCount : Nat}
variable {beyond : left.Configuration → Prop}
  {running : left.Configuration → right.Configuration → Prop}
  {ended : left.Outcome FuncCallError Unit → right.Outcome FuncCallError Unit → Prop}

/-- Every step of related configurations within the bound is matched, or it leads beyond
the bound and ends the other call. -/
def Lockstep
    (leftModule : left.Code) (rightModule : right.Code)
    (entry : FuncIndex) (resultsCount : Nat)
    (beyond : left.Configuration → Prop)
    (running : left.Configuration → right.Configuration → Prop)
    (ended : left.Outcome FuncCallError Unit → right.Outcome FuncCallError Unit → Prop) :
    Prop :=
  ∀ c d, running c d → ¬beyond c →
    Progress.Matches running ended (left.next leftModule entry resultsCount c)
        (right.next rightModule entry resultsCount d) ∨
      ∃ c' outcome, left.next leftModule entry resultsCount c = .running c' ∧ beyond c' ∧
        right.next rightModule entry resultsCount d = .ended outcome

/-- The loops of machines in lockstep come to matching outcomes on the same budget, if
the first stays within the bound. -/
theorem Lockstep.frameLoop
    (lockstep : Lockstep leftModule rightModule entry resultsCount beyond running ended)
    (fuel : Nat)
    {c : left.Configuration} {d : right.Configuration}
    (related : running c d)
    (within : ∀ c', left.Runs leftModule (fun _ => True) entry resultsCount c c' →
      ¬beyond c') :
    Option.Rel ended
      (left.frameLoop leftModule fuel entry resultsCount c.activation c.pc c.frames c.inst)
      (right.frameLoop rightModule fuel entry resultsCount d.activation d.pc d.frames
        d.inst) := by
  induction fuel generalizing c d with
  | zero => exact .none
  | succ fuel inductionHypothesis =>
      rw [frameLoop_eq_next, frameLoop_eq_next]
      have onward : ∀ c', left.next leftModule entry resultsCount c = .running c' →
          ∀ c'', left.Runs leftModule (fun _ => True) entry resultsCount c' c'' →
            ¬beyond c'' := by
        intro c' stepped c'' ran
        exact within c'' (Runs.trans (.step .start trivial stepped) ran)
      rcases lockstep c d related (within c .start) with matched | ⟨c', _, stepped, left, _⟩
      · revert matched onward
        generalize left.next leftModule entry resultsCount c = progress
        generalize right.next rightModule entry resultsCount d = progress'
        intro onward matched
        cases matched with
        | running related => exact inductionHypothesis related (onward _ rfl)
        | ended related => exact .some related
      · exact (onward c' stepped c' .start left).elim

/-- A run of one machine within the bound is one of the other. -/
theorem Lockstep.runs
    {allowed : right.Configuration → Prop}
    (lockstep : Lockstep leftModule rightModule entry resultsCount beyond running ended)
    (within : ∀ c d, running c d → allowed d → ¬beyond c)
    {start : left.Configuration} {start' final' : right.Configuration}
    (related : running start start')
    (ran : right.Runs rightModule allowed entry resultsCount start' final') :
    ∃ final, left.Runs leftModule (fun _ => True) entry resultsCount start final ∧
      running final final' := by
  induction ran with
  | start => exact ⟨start, .start, related⟩
  | @step before' after' _ isAllowed stepped inductionHypothesis =>
      obtain ⟨before, ran, relatedBefore⟩ := inductionHypothesis
      have steps := lockstep before before' relatedBefore
        (within before before' relatedBefore isAllowed)
      rw [stepped] at steps
      rcases steps with matched | ⟨_, _, _, _, isEnded⟩
      · revert matched
        generalize reached : left.next leftModule entry resultsCount before = progress
        intro matched
        cases matched with
        | running relatedAfter => exact ⟨_, .step ran trivial reached, relatedAfter⟩
      · cases isEnded

end Lockstep

end Machine

end TraceWasm
