import Mathlib.Algebra.GroupWithZero.Nat
import Mathlib.Logic.Basic
import Pertexo.Library.Results

/-!
# Runs of a system

A run starts in an initial state and takes one step for each of its inputs. The
inputs are kept in order, so that an invariant may speak of what a run has read.
-/

namespace Pertexo
namespace Library

section

variable {State Input : Type}

inductive Run (initial : State -> Prop) (step : State -> Input -> State -> Prop) :
    List Input -> State -> Prop where
  | start {state : State} (hinitial : initial state) : Run initial step [] state
  | step {inputs : List Input} {before after : State} {input : Input}
      (hrun : Run initial step inputs before) (hstep : step before input after) :
      Run initial step (inputs ++ [input]) after

variable {initial : State -> Prop} {step : State -> Input -> State -> Prop}

/-- What holds at the start and is kept by every step holds in every run. -/
theorem Run.invariant {inputs : List Input} {state : State}
    (h : Run initial step inputs state) (P : List Input -> State -> Prop)
    (hstart : forall start, initial start -> P [] start)
    (hstep : forall inputs before input after, Run initial step inputs before ->
      P inputs before -> step before input after -> P (inputs ++ [input]) after) :
    P inputs state := by
  induction h with
  | start hinitial => exact hstart _ hinitial
  | step hrun hnext ih => exact hstep _ _ _ _ hrun ih hnext

end

/-!
## Stack machines

A machine takes the frame on top of its stack. The frame changes the state and puts further
frames on the stack, which together weigh less than the frame did, so that every run ends.
-/

structure StackMachine (Frame State Failure : Type) where
  take : Frame -> State -> Except Failure (List Frame × State)
  weight : Frame -> Nat
  lighter : forall frame state pushed next, take frame state = .ok (pushed, next) ->
    (pushed.map weight).sum < weight frame

section

variable {Frame State Failure : Type}

def StackMachine.run (machine : StackMachine Frame State Failure) (stack : List Frame)
    (state : State) : Except Failure State :=
  match stack with
  | [] => .ok state
  | frame :: rest =>
      match _h : machine.take frame state with
      | .error failure => .error failure
      | .ok (pushed, next) => machine.run (pushed ++ rest) next
termination_by (stack.map machine.weight).sum
decreasing_by
  have hlighter := machine.lighter frame state pushed next _h
  rw [List.map_append, List.sum_append, List.map_cons, List.sum_cons]
  omega

variable {machine : StackMachine Frame State Failure}

@[simp] theorem StackMachine.run_nil (state : State) : machine.run [] state = .ok state := by
  rw [StackMachine.run]

theorem StackMachine.run_cons_ok {frame : Frame} {rest pushed : List Frame} {state next : State}
    (h : machine.take frame state = .ok (pushed, next)) :
    machine.run (frame :: rest) state = machine.run (pushed ++ rest) next := by
  rw [StackMachine.run]
  split
  · next failure hfailure =>
    rw [h] at hfailure
    cases hfailure
  · next taken after htaken =>
    rw [h] at htaken
    cases htaken
    rfl

theorem StackMachine.run_cons_error {frame : Frame} {rest : List Frame} {state : State}
    {failure : Failure} (h : machine.take frame state = .error failure) :
    machine.run (frame :: rest) state = .error failure := by
  rw [StackMachine.run]
  split
  · next other hother =>
    rw [h] at hother
    cases hother
    rfl
  · next taken after htaken =>
    rw [h] at htaken
    cases htaken

/-- The frames on top are done before the frames below them are looked at. -/
theorem StackMachine.run_append (first rest : List Frame) (state : State) :
    machine.run (first ++ rest) state = machine.run first state >>= machine.run rest := by
  induction first, state using StackMachine.run.induct machine with
  | case1 state =>
      rw [List.nil_append, run_nil]
      rfl
  | case2 state frame below failure h =>
      rw [List.cons_append, run_cons_error h, run_cons_error h]
      rfl
  | case3 state frame below pushed next h ih =>
      rw [List.cons_append, run_cons_ok h, run_cons_ok h, ← List.append_assoc]
      exact ih

theorem StackMachine.run_cons (frame : Frame) (rest : List Frame) (state : State) :
    machine.run (frame :: rest) state = machine.run [frame] state >>= machine.run rest :=
  run_append [frame] rest state

theorem StackMachine.run_singleton (frame : Frame) (state : State) :
    machine.run [frame] state =
      machine.take frame state >>= fun taken => machine.run taken.fst taken.snd := by
  cases h : machine.take frame state with
  | error failure =>
      rw [run_cons_error h]
      rfl
  | ok taken =>
      rw [run_cons_ok h, List.append_nil]
      rfl

theorem StackMachine.run_congr {other : StackMachine Frame State Failure}
    (h : forall frame state, machine.take frame state = other.take frame state)
    (stack : List Frame) (state : State) : machine.run stack state = other.run stack state := by
  induction stack, state using StackMachine.run.induct machine with
  | case1 state => rw [run_nil, run_nil]
  | case2 state frame below failure hfailure =>
      rw [run_cons_error hfailure, run_cons_error ((h frame state).symm.trans hfailure)]
  | case3 state frame below pushed next hnext ih =>
      rw [run_cons_ok hnext, run_cons_ok ((h frame state).symm.trans hnext)]
      exact ih

end

end Library
end Pertexo
