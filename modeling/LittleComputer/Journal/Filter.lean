import LittleComputer.Journal.Directive

namespace LittleComputer

/-! Choosing what is logged -/

/-- Of the directives that concern an event the most specific one decides, and of equally
specific ones the last. -/
structure Filter where
  directives : List Directive
  deriving DecidableEq

namespace Filter

def ofLevel (level : Level) : Filter :=
  ⟨[{ level := some level }]⟩

def deciding? (filter : Filter) (event : Event) : Option Directive :=
  (filter.directives.filter (·.concerns event)).foldl (fun best directive =>
    match best with
    | none => some directive
    | some best => if directive.isAsSpecificAs best then some directive else some best) none

def admits (filter : Filter) (event : Event) : Bool :=
  (filter.deciding? event).any (·.admits event.level)

/-- Directives separated by commas. No directive at all means errors only. -/
def parse? (text : String) : Option Filter :=
  match (text.splitOn ",").filter (· ≠ "") with
  | [] => some (ofLevel .error)
  | parts => (parts.mapM Directive.parse?).map Filter.mk

end Filter

end LittleComputer
