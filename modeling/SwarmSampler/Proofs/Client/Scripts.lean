import SwarmSampler.Client.Scripted
import SwarmSampler.Proofs.Check.Apart

/-
What a client with scripts has in store for a magnet: the rest of its script, or
that it breaks down, besides the fallback and the latency. This foretells all that
the client answers about the magnet, and asking about another magnet changes
nothing of it.
-/

namespace SwarmSampler

namespace ScriptedClient

/-- The results that a magnet's first script has left. -/
def scriptOf (magnet : String) (scripts : List (String × List QueryResult)) : List QueryResult :=
  ((scripts.find? (·.1 = magnet)).map (·.2)).getD []

theorem scriptOf_cons (m magnet : String) (results : List QueryResult) (rest : List (String × List QueryResult)) :
    scriptOf magnet ((m, results) :: rest) = if m = magnet then results else scriptOf magnet rest := by
  by_cases h : m = magnet <;> simp [scriptOf, h]

/-- The first result of a magnet's script is answered, or the fallback, and taken off. -/
theorem next_eq (fallback : QueryResult) (magnet : String) (scripts : List (String × List QueryResult)) :
    (next fallback magnet scripts).1 = (scriptOf magnet scripts).headD fallback ∧
      ∀ m, scriptOf m (next fallback magnet scripts).2 =
        if m = magnet then (scriptOf magnet scripts).tail else scriptOf m scripts := by
  induction scripts with
  | nil => exact ⟨rfl, fun m => by simp [next, scriptOf]⟩
  | cons entry rest ih =>
    obtain ⟨name, results⟩ := entry
    by_cases h : name = magnet
    · subst h
      cases results with
      | nil =>
        refine ⟨by simp [next, scriptOf_cons], fun m => ?_⟩
        by_cases h : m = name
        · simp [next, scriptOf_cons, h]
        · simp [next, h]
      | cons r results =>
        refine ⟨by simp [next, scriptOf_cons], fun m => ?_⟩
        by_cases h : m = name
        · simp [next, scriptOf_cons, h]
        · simp [next, scriptOf_cons, h, Ne.symm h]
    · refine ⟨by simpa [next, scriptOf_cons, h] using ih.1, fun m => ?_⟩
      simp only [next, h, if_false, scriptOf_cons, ih.2]
      by_cases hm : m = magnet
      · simp [hm, h]
      · simp [hm]

/-- What a client has in store for a magnet. -/
structure Prospect where
  fallback : QueryResult
  latency : Nat
  /-- None if the magnet breaks the client down. -/
  script : Option (List QueryResult)
  deriving DecidableEq

def prospect (c : ScriptedClient) (magnet : String) : Prospect :=
  ⟨c.fallback, c.latency, if c.crashes.contains magnet then none else some (scriptOf magnet c.scripts)⟩

theorem ask_other {magnet m : String} (other : m ≠ magnet) (now : Nat) (c : ScriptedClient) :
    (c.ask now magnet).2.prospect m = c.prospect m := by
  unfold ask
  split
  · rfl
  · simp only [prospect, (next_eq c.fallback magnet c.scripts).2 m, if_neg other]

/-- What a client has in store for a magnet foretells what it answers about it. -/
theorem ask_foretold (magnet : String) (now now' : Nat) {c c' : ScriptedClient}
    (seen : c'.prospect magnet = c.prospect magnet) :
    Reacts (·.prospect magnet) (c.ask now magnet) (c'.ask now' magnet) := by
  simp only [prospect, Prospect.mk.injEq] at seen
  obtain ⟨fallback, latency, script⟩ := seen
  unfold ask
  cases hc : c.crashes.contains magnet <;> cases hc' : c'.crashes.contains magnet <;>
    simp only [hc, hc', Bool.false_eq_true, ↓reduceIte, reduceCtorEq, Option.some.injEq] at script ⊢
  · obtain ⟨hfirst, hrest⟩ := next_eq c.fallback magnet c.scripts
    obtain ⟨hfirst', hrest'⟩ := next_eq c'.fallback magnet c'.scripts
    have hleft : scriptOf magnet (next c'.fallback magnet c'.scripts).2 =
        scriptOf magnet (next c.fallback magnet c.scripts).2 := by
      rw [hrest', hrest, if_pos rfl, if_pos rfl, script]
    refine .answer (by simp only [latency]) ?_ ?_
    · refine hfirst'.trans (Eq.trans ?_ hfirst.symm)
      rw [script, fallback]
    · simp only [prospect]
      rw [hleft, fallback, latency, hc, hc']
  · exact .crash

end ScriptedClient

namespace Observed

/-- What the client inside has in store for a magnet. -/
def prospect (o : Observed ScriptedClient) (magnet : String) : ScriptedClient.Prospect :=
  o.client.prospect magnet

theorem prospect_ask {magnet m : String} (other : m ≠ magnet) (now : Nat) (timeout : Span)
    (o : Observed ScriptedClient) : (SwarmClient.ask now magnet timeout o).2.prospect m = o.prospect m :=
  ScriptedClient.ask_other other now o.client

/-- **What is in store for a magnet foretells all that is answered about it.** -/
theorem foretells (magnet : String) : Foretells magnet fun o : Observed ScriptedClient => o.prospect magnet where
  ask now now' timeout {o o'} seen := by
    have hr : Reacts (·.prospect magnet) (o.client.ask now magnet) (o'.client.ask now' magnet) :=
      ScriptedClient.ask_foretold magnet now now' seen
    simp only [SwarmClient.ask]
    generalize o.client.ask now magnet = x at hr ⊢
    generalize o'.client.ask now' magnet = x' at hr ⊢
    cases hr with
    | crash => exact .crash
    | answer takes result after => exact .answer takes result after
  leave _ _ _ := rfl

/-- A turn of a check of another magnet leaves what is in store for a magnet. -/
theorem prospect_resume {m : String} {p : Probe (Nat × Unit)} (other : m ≠ p.magnet) (now : Nat) (cancelled : Bool)
    (o : Observed ScriptedClient) : (p.resume now cancelled o).2.prospect m = o.prospect m :=
  Probe.resume_keeps (P := fun o' => o'.prospect m = o.prospect m) (fun _ _ _ h => h) now cancelled p o
    (fun now timeout _ h => (prospect_ask other now timeout _).trans h) rfl

/-- A check comes to a verdict unless its magnet breaks the client down. -/
theorem verdict_isSome (magnet : String) (policy : RetryPolicy) (o : Observed ScriptedClient) :
    ((Probe.start magnet policy).verdict o).isSome = !o.client.crashes.contains magnet := by
  cases hc : o.client.crashes.contains magnet with
  | true =>
    have hask : o.client.ask 0 magnet = (.crashed, o.client) := if_pos hc
    have hbroken : SwarmClient.ask 0 magnet policy.queryTimeout o = _ := ask_of_crashed hask
    rw [Probe.verdict_eq_none (p := .start magnet policy) rfl hbroken]
    rfl
  | false =>
    let Spared (o : Observed ScriptedClient) : Prop := o.client.crashes.contains magnet = false
    have asked : ∀ now o, Spared o → ∃ q o',
        SwarmClient.ask now magnet policy.queryTimeout o = (.underway q, o') ∧ Spared o' := by
      intro now o spared
      obtain ⟨q, client', hask, hcrashes⟩ : ∃ q client',
          o.client.ask now magnet = (.underway q, client') ∧ client'.crashes = o.client.crashes :=
        ⟨_, _, if_neg (by rw [spared]; exact Bool.false_ne_true), rfl⟩
      refine ⟨_, _, ask_of_underway hask, ?_⟩
      show client'.crashes.contains magnet = false
      rw [hcrashes]
      exact spared
    exact Probe.verdict_isSome (P := Spared) hc asked (fun _ _ _ h => h) rfl

end Observed

end SwarmSampler
