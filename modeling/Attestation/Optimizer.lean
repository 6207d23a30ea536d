import Attestation.Rule.Contradiction
import Attestation.Rule.Implication
import Attestation.Rule.Substitution

/-!
# The optimizer

The optimizer works on a set of gadgets, kept in the order in which they came in, no two the same.
A step looks for contradictions, adds what pairs of gadgets imply and have not implied before, and
makes the first substitution that applies. Steps are taken until one changes nothing; more steps
than the cap allows are an error of the compiler.
-/

namespace Attestation

open Text

/-- The rules that are applied, of each kind in the order of priority. -/
structure RuleSet where
  contradictions : List Contradiction
  implications : List Implication
  substitutions : List Substitution
  deriving DecidableEq, Repr

namespace RuleSet

/-- All rules. -/
def standard : RuleSet :=
  ⟨Contradiction.all, Implication.all, Substitution.all⟩

/-- No rules. -/
def empty : RuleSet :=
  ⟨[], [], []⟩

/-- The rules with the given names, of each kind in the order of the names. -/
def named (names : List String) : RuleSet where
  contradictions := names.filterMap fun name => Contradiction.all.find? (·.name = name)
  implications := names.filterMap fun name => Implication.all.find? (·.name = name)
  substitutions := names.filterMap fun name => Substitution.all.find? (·.name = name)

/-- The first contradiction among gadgets. -/
def contradiction? (rules : RuleSet) (gadgets : List Gadget) : Option Diagnostic :=
  rules.contradictions.findSome? fun rule => rule.pattern.first? gadgets

/-- What pairs of gadgets imply. -/
def implied (rules : RuleSet) (gadgets : List Gadget) : List Gadget :=
  rules.implications.flatMap fun rule => rule.pattern.allPairs gadgets

/-- The first substitution: what is put in, and the gadgets that stay. -/
def substitution? (rules : RuleSet) (gadgets : List Gadget) :
    Option (List Gadget × List Gadget) :=
  rules.substitutions.findSome? fun rule => rule.pattern.extract? gadgets

end RuleSet

/-! ## Sets of gadgets -/

/-- Gadgets in the order in which they came in. -/
abbrev GadgetSet := List Gadget

namespace GadgetSet

/-- Whether one of the gadgets is the same as a given one. -/
def has (set : GadgetSet) (g : Gadget) : Bool :=
  set.any (·.same g)

/-- Adds a gadget unless the set has it. -/
def add (set : GadgetSet) (g : Gadget) : GadgetSet :=
  if set.has g then set else set ++ [g]

/-- Adds gadgets one by one. -/
def addAll (set : GadgetSet) (gadgets : List Gadget) : GadgetSet :=
  gadgets.foldl add set

/-- The gadgets of a list, each once. -/
def ofList (gadgets : List Gadget) : GadgetSet :=
  addAll [] gadgets

end GadgetSet

/-! ## Steps -/

/-- The gadgets at hand and all that ever were. -/
structure OptimizerState where
  current : GadgetSet
  seen : GadgetSet
  deriving DecidableEq, Repr

/-- The outcome of a step. -/
inductive OptimizerStep where
  /-- The gadgets contradict each other. -/
  | contradiction (error : Diagnostic)
  /-- There is nothing more to do. -/
  | stable (gadgets : List Gadget)
  | next (state : OptimizerState)
  deriving DecidableEq, Repr

namespace OptimizerState

/-- The state to start from. -/
def initial (gadgets : List Gadget) : OptimizerState :=
  ⟨.ofList gadgets, .ofList gadgets⟩

/-- What the gadgets at hand imply that never was there. -/
def fresh (rules : RuleSet) (s : OptimizerState) : GadgetSet :=
  .ofList ((rules.implied s.current).filter fun g => !s.seen.has g)

/-- Adds gadgets to those at hand. -/
def add (s : OptimizerState) (gadgets : List Gadget) : OptimizerState :=
  ⟨s.current.addAll gadgets, s.seen.addAll gadgets⟩

/-- Makes the first substitution, if there is one. -/
def substitute? (rules : RuleSet) (s : OptimizerState) : Option OptimizerState :=
  (rules.substitution? s.current).map fun (replacement, others) =>
    add ⟨others, s.seen⟩ replacement

/-- One step: contradictions, implications, then one substitution. -/
def step (rules : RuleSet) (s : OptimizerState) : OptimizerStep :=
  match rules.contradiction? s.current with
  | some error => .contradiction error
  | none =>
    let grown := s.add (s.fresh rules)
    match grown.substitute? rules with
    | some s' => .next s'
    | none =>
      if s.current.length < grown.current.length then .next grown else .stable grown.current

/-- Takes at most the given number of steps; nothing if they do not suffice. -/
def run? (rules : RuleSet) : Nat → OptimizerState → Option (Except Diagnostic (List Gadget))
  | 0, _ => none
  | cap + 1, s =>
    match s.step rules with
    | .contradiction error => some (.error error)
    | .stable gadgets => some (.ok gadgets)
    | .next s' => run? rules cap s'

/-- The number of steps it takes to come to an end, if the given number suffices. -/
def steps? (rules : RuleSet) : Nat → OptimizerState → Option Nat
  | 0, _ => none
  | cap + 1, s =>
    match s.step rules with
    | .next s' => (steps? rules cap s').map (· + 1)
    | _ => some 1

end OptimizerState

namespace Optimizer

/-- The number of steps that are taken at most, if nothing else is asked for. -/
def defaultCap : Nat := 10000

/-- The error for a cap that does not suffice. -/
def notConverged (cap : Nat) : Diagnostic :=
  .internal s!"optimizer did not reach a fixpoint within {Decimal.ofNat cap} iterations"

/-- Optimizes gadgets in at most `cap` steps. -/
def optimize (rules : RuleSet) (cap : Nat) (gadgets : List Gadget) :
    Except Diagnostic (List Gadget) :=
  match OptimizerState.run? rules cap (.initial gadgets) with
  | some outcome => outcome
  | none => .error (notConverged cap)

end Optimizer

end Attestation
