import Mathlib.Data.List.Forall2
import Mathlib.Logic.Function.Basic

/-!
# Clients that take turns

An object answers calls one at a time, each in one piece. Here are the turns that a sequence of calls
takes, and several clients that make their calls in any interleaving. Whatever the interleaving, what the
clients were answered are the turns of one sequence, in which every client's calls keep their order; so a
statement about sequences is one about interleavings. What one step keeps of a state and the history of the
steps before it, a sequence keeps.
-/

namespace ForeignKey

variable {State State' Call Answer Answer' : Type}

/-! ## Sequences -/

/-- What every step keeps of a state and its history, a run keeps. -/
theorem holds_foldl {Step : Type} (step : State → Step → State) (Holds : State → List Step → Prop)
    (keeps : ∀ s past next, Holds s past → Holds (step s next) (past ++ [next]))
    {s : State} {past : List Step} (h : Holds s past) (steps : List Step) :
    Holds (steps.foldl step s) (past ++ steps) := by
  induction steps generalizing s past with
  | nil =>
    rw [List.append_nil]
    exact h
  | cons next rest ih =>
    have hrest := ih (keeps s past next h)
    rw [List.append_assoc] at hrest
    exact hrest

/-- A call with its answer, and the states before and after it. -/
structure Turn (State Call Answer : Type) where
  before : State
  call : Call
  answer : Answer
  after : State

/-- The turn of a call. `act` gives the answer and the next state. -/
def turn (act : State → Call → Answer × State) (s : State) (call : Call) : Turn State Call Answer :=
  ⟨s, call, (act s call).1, (act s call).2⟩

/-- The turns of a sequence of calls. -/
def turns (act : State → Call → Answer × State) : State → List Call → List (Turn State Call Answer)
  | _, [] => []
  | s, call :: rest => turn act s call :: turns act (turn act s call).after rest

/-- The state that a sequence of calls leaves. -/
def stateAfter (act : State → Call → Answer × State) (s : State) (calls : List Call) : State :=
  calls.foldl (fun s call => (turn act s call).after) s

variable {act : State → Call → Answer × State} {act' : State' → Call → Answer' × State'}

theorem turns_concat (s : State) (calls : List Call) (call : Call) :
    turns act s (calls ++ [call]) = turns act s calls ++ [turn act (stateAfter act s calls) call] := by
  induction calls generalizing s with
  | nil => rfl
  | cons first rest ih => rw [List.cons_append, turns, ih, turns, List.cons_append]; rfl

theorem stateAfter_concat (s : State) (calls : List Call) (call : Call) :
    stateAfter act s (calls ++ [call]) = (turn act (stateAfter act s calls) call).after :=
  List.foldl_concat ..

theorem map_call_turns (s : State) (calls : List Call) :
    (turns act s calls).map Turn.call = calls := by
  induction calls generalizing s with
  | nil => rfl
  | cons call rest ih => rw [turns, List.map_cons, ih]; rfl

/-- What holds of the turn of any call in any state holds of all turns of a sequence. -/
theorem forall_mem_turns {motive : Turn State Call Answer → Prop}
    (h : ∀ s call, motive (turn act s call)) (s : State) (calls : List Call) :
    ∀ t ∈ turns act s calls, motive t := by
  induction calls generalizing s with
  | nil => exact fun t ht => absurd ht List.not_mem_nil
  | cons call rest ih =>
    intro t ht
    rcases List.mem_cons.mp ht with rfl | ht
    · exact h s call
    · exact ih _ t ht

/-- What every call keeps of a state holds after every sequence. -/
theorem stateAfter_induction {motive : State → Prop}
    (keeps : ∀ s call, motive s → motive (turn act s call).after) {s : State} (h : motive s)
    (calls : List Call) : motive (stateAfter act s calls) :=
  List.foldlRecOn (motive := motive) calls _ h fun s hs call _ => keeps s call hs

/-- Two objects in related states take related turns, if every call relates the next states as well. -/
theorem forall₂_turns {R : State → State' → Prop}
    {Same : Turn State Call Answer → Turn State' Call Answer' → Prop}
    (keeps : ∀ s s' call, R s s' → R (turn act s call).after (turn act' s' call).after)
    (same : ∀ s s' call, R s s' → Same (turn act s call) (turn act' s' call))
    {s : State} {s' : State'} (h : R s s') (calls : List Call) :
    List.Forall₂ Same (turns act s calls) (turns act' s' calls) := by
  induction calls generalizing s s' with
  | nil => exact .nil
  | cons call rest ih => exact .cons (same s s' call h) (ih (keeps s s' call h))

/-! ## Interleavings -/

/-- Clients of one object: the calls that each has still to make, the state of the object, and the turns
so far, each with the client who took it. -/
structure Clients (Client State Call Answer : Type) where
  pending : Client → List Call
  state : State
  log : List (Client × Turn State Call Answer)

namespace Clients

variable {Client : Type} [DecidableEq Client]

/-- A client makes a call and has `rest` left. -/
def takeTurn (act : State → Call → Answer × State) (c : Clients Client State Call Answer)
    (client : Client) (call : Call) (rest : List Call) : Clients Client State Call Answer where
  pending := Function.update c.pending client rest
  state := (turn act c.state call).after
  log := c.log ++ [(client, turn act c.state call)]

/-- Any client that has calls left takes the next turn. -/
inductive Step (act : State → Call → Answer × State) (c : Clients Client State Call Answer) :
    Clients Client State Call Answer → Prop where
  | turn {client : Client} {call : Call} {rest : List Call} (h : c.pending client = call :: rest) :
      Step act c (c.takeTurn act client call rest)

/-- What clients with some programs come to, in whatever order they take their turns. -/
inductive Reachable (act : State → Call → Answer × State) (programs : Client → List Call)
    (s : State) : Clients Client State Call Answer → Prop where
  | start : Reachable act programs s ⟨programs, s, []⟩
  | step {c next : Clients Client State Call Answer} (h : Reachable act programs s c)
      (hstep : Step act c next) : Reachable act programs s next

/-- The turns so far. -/
def taken (c : Clients Client State Call Answer) : List (Turn State Call Answer) :=
  c.log.map Prod.snd

/-- The calls so far, in the order of the turns. -/
def calls (c : Clients Client State Call Answer) : List Call := c.taken.map Turn.call

/-- The calls that one client has made so far. -/
def callsOf (c : Clients Client State Call Answer) (client : Client) : List Call :=
  (c.log.filter (·.1 = client)).map fun e => e.2.call

variable {programs : Client → List Call} {s : State} {c next : Clients Client State Call Answer}

theorem taken_takeTurn (client : Client) (call : Call) (rest : List Call) :
    (c.takeTurn act client call rest).taken = c.taken ++ [turn act c.state call] := by
  simp [taken, takeTurn]

theorem calls_takeTurn (client : Client) (call : Call) (rest : List Call) :
    (c.takeTurn act client call rest).calls = c.calls ++ [call] := by
  rw [calls, taken_takeTurn, List.map_append]
  rfl

theorem callsOf_takeTurn (client other : Client) (call : Call) (rest : List Call) :
    (c.takeTurn act client call rest).callsOf other =
      c.callsOf other ++ if client = other then [call] else [] := by
  by_cases h : client = other <;> simp [callsOf, takeTurn, turn, h]

/-- The turns of the clients are those of one sequence of calls, and each client is somewhere in its
program. -/
structure Serial (act : State → Call → Answer × State) (programs : Client → List Call) (s : State)
    (c : Clients Client State Call Answer) : Prop where
  taken_eq : c.taken = turns act s c.calls
  state_eq : c.state = stateAfter act s c.calls
  program_eq : ∀ client, c.callsOf client ++ c.pending client = programs client

theorem Serial.step (h : c.Serial act programs s) (hstep : Step act c next) :
    next.Serial act programs s := by
  cases hstep with
  | @turn client call rest hpending =>
    refine ⟨?_, ?_, fun other => ?_⟩
    · rw [calls_takeTurn, taken_takeTurn, turns_concat, ← h.taken_eq, ← h.state_eq]
    · rw [calls_takeTurn, stateAfter_concat, ← h.state_eq]
      rfl
    · rw [callsOf_takeTurn, ← h.program_eq other]
      by_cases hother : client = other
      · -- the call moves from what is left of the program to what has been made of it
        subst hother
        simp [takeTurn, hpending]
      · have hkept : (c.takeTurn act client call rest).pending other = c.pending other :=
          Function.update_of_ne (Ne.symm hother) _ _
        rw [if_neg hother, List.append_nil, hkept]

theorem Reachable.serial (h : c.Reachable act programs s) : c.Serial act programs s := by
  induction h with
  | start => exact ⟨rfl, rfl, fun _ => rfl⟩
  | step _ hstep ih => exact ih.step hstep

end Clients

end ForeignKey
