/-
The permits that bound how many checks run at a time. Who finds no permit
stands in line; a permit given back goes to the first in line, or lies free.
-/

namespace SwarmSampler

/-- Permits, and those who wait for them, by number. -/
structure Pool where
  free : Nat
  line : List Nat
  /-- Those who were given a permit while they stood in line and have not used it. -/
  granted : List Nat

namespace Pool

def full (size : Nat) : Pool := ⟨size, [], []⟩

/-- Takes a permit, if one was granted or is free. -/
def take? (p : Pool) (who : Nat) : Option Pool :=
  if p.granted.contains who then some { p with granted := p.granted.erase who }
  else if 0 < p.free then some { p with free := p.free - 1 }
  else none

def enqueue (p : Pool) (who : Nat) : Pool :=
  if p.line.contains who then p else { p with line := p.line ++ [who] }

def release (p : Pool) : Pool :=
  match p.line with
  | [] => { p with free := p.free + 1 }
  | who :: line => { p with line := line, granted := p.granted ++ [who] }

/-- Stops waiting, and gives back what was granted. -/
def withdraw (p : Pool) (who : Nat) : Pool :=
  if p.granted.contains who then { p with granted := p.granted.erase who }.release
  else { p with line := p.line.erase who }

def offers (p : Pool) (who : Nat) : Bool := p.granted.contains who || 0 < p.free

end Pool

end SwarmSampler
