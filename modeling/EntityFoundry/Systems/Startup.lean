/-! The order systems start in. A dependency declared before its system starts has to have started
before it; every failure to do so is kept. -/
namespace EntityFoundry

structure Startup (κ : Type) where
  declared : List (κ × κ) := []
  started : List κ := []
  violations : List (κ × κ) := []
  deriving Repr

namespace Startup
variable {κ : Type} [DecidableEq κ]

def declares (s : Startup κ) (system dependency : κ) : Bool :=
  decide ((system, dependency) ∈ s.declared)

def declare (s : Startup κ) (system dependency : κ) : Startup κ :=
  if s.declares system dependency then s
  else { s with declared := s.declared ++ [(system, dependency)] }

def dependencies (s : Startup κ) (system : κ) : List κ :=
  (s.declared.filter fun d => decide (d.1 = system)).map (·.2)

def hasStarted (s : Startup κ) (system : κ) : Bool := decide (system ∈ s.started)

def start (s : Startup κ) (system : κ) : Startup κ :=
  let missing := (s.dependencies system).filter fun d => !s.hasStarted d
  { s with
    violations := s.violations ++ missing.map (system, ·)
    started := if s.hasStarted system then s.started else s.started ++ [system] }

def check (s : Startup κ) : Except (List (κ × κ)) Unit :=
  if s.violations.isEmpty then .ok () else .error s.violations

def violationsMessage (name : κ → String) (violations : List (κ × κ)) : String :=
  let clause (v : κ × κ) := s!"'{name v.1}' requires '{name v.2}'"
  "system dependencies not satisfied: " ++ ", ".intercalate (violations.map clause)

end Startup
end EntityFoundry
