import Mathlib
import LocusMesh.Transition

/-! Overlapping calls of a shared object. The object says what a call does that is made alone; a
history is linearized when each call has its effect at one point between its invocation and its
response, and is answered as the object would answer it there. -/
namespace Linearization

open Transition

section Objects

variable {Q Op Res ι : Type*}

/-- What each call answers and leaves behind. -/
structure AtomicObject (Q Op Res : Type*) where
  start : Q
  apply : Op → Q → Res × Q

/-- Where a client stands: in no call, before its effect, or behind it. -/
inductive Status (Op Res : Type*)
  | idle
  | pending (op : Op)
  | done (op : Op) (res : Res)

inductive Event (ι Op Res : Type*)
  | invoke (i : ι) (op : Op)
  | perform (i : ι) (op : Op) (res : Res)
  | respond (i : ι) (op : Op) (res : Res)
  /-- A call that ends without effect or answer. -/
  | abort (i : ι) (op : Op)

namespace Event

def client : Event ι Op Res → ι
  | invoke i _ => i
  | perform i _ _ => i
  | respond i _ _ => i
  | abort i _ => i

def performed : Event ι Op Res → Option (Op × Res)
  | perform _ op res => some (op,res)
  | _ => none

def responded : Event ι Op Res → Option (Op × Res)
  | respond _ op res => some (op,res)
  | _ => none

end Event

/-- The events of one client come call by call: an invocation, an effect, a response. -/
inductive Follows (i : ι) : List (Event ι Op Res) → Status Op Res → Prop
  | start : Follows i [] .idle
  | other {past : List (Event ι Op Res)} {status : Status Op Res} {e : Event ι Op Res}
      (h : Follows i past status) (he : e.client ≠ i) : Follows i (past ++ [e]) status
  | invoke {past : List (Event ι Op Res)} {op : Op} (h : Follows i past .idle) :
      Follows i (past ++ [.invoke i op]) (.pending op)
  | perform {past : List (Event ι Op Res)} {op : Op} {res : Res} (h : Follows i past (.pending op)) :
      Follows i (past ++ [.perform i op res]) (.done op res)
  | respond {past : List (Event ι Op Res)} {op : Op} {res : Res} (h : Follows i past (.done op res)) :
      Follows i (past ++ [.respond i op res]) .idle
  | abort {past : List (Event ι Op Res)} {op : Op} (h : Follows i past (.pending op)) :
      Follows i (past ++ [.abort i op]) .idle

variable (O : AtomicObject Q Op Res)

/-- A run of the object, one call after the other. -/
inductive Legal : List (Op × Res) → Q → Prop
  | start : Legal [] O.start
  | perform {past : List (Op × Res)} {q q' : Q} {op : Op} {res : Res} (h : Legal past q)
      (happly : O.apply op q = (res,q')) : Legal (past ++ [(op,res)]) q'

/-- The effects make up a run of the object, and every client's events come call by call. -/
structure Linearized (past : List (Event ι Op Res)) (q : Q) (status : ι → Status Op Res) : Prop where
  legal : Legal O (past.filterMap Event.performed) q
  follows : ∀ i, Follows i past (status i)

variable [DecidableEq ι]

inductive Move (x : Q × (ι → Status Op Res)) :
    List (Event ι Op Res) → Q × (ι → Status Op Res) → Prop
  | still : Move x [] x
  | invoke (i : ι) (op : Op) (h : x.2 i = .idle) :
      Move x [.invoke i op] (x.1,Function.update x.2 i (.pending op))
  | perform (i : ι) (op : Op) (res : Res) (q : Q) (h : x.2 i = .pending op)
      (happly : O.apply op x.1 = (res,q)) :
      Move x [.perform i op res] (q,Function.update x.2 i (.done op res))
  | respond (i : ι) (op : Op) (res : Res) (h : x.2 i = .done op res) :
      Move x [.respond i op res] (x.1,Function.update x.2 i .idle)
  | abort (i : ι) (op : Op) (h : x.2 i = .pending op) :
      Move x [.abort i op] (x.1,Function.update x.2 i .idle)
  /-- A call in a single step. -/
  | whole (i : ι) (op : Op) (res : Res) (q : Q) (h : x.2 i = .idle)
      (happly : O.apply op x.1 = (res,q)) :
      Move x [.invoke i op,.perform i op res,.respond i op res] (q,x.2)

variable {O} {past : List (Event ι Op Res)} {q : Q} {status : ι → Status Op Res}

omit [DecidableEq ι] in
theorem linearized_start : Linearized O ([] : List (Event ι Op Res)) O.start fun _ => .idle :=
  ⟨.start,fun _ => .start⟩

omit [DecidableEq ι] in
theorem Legal.pass (h : Legal O (past.filterMap Event.performed) q) {e : Event ι Op Res}
    (he : e.performed = none) : Legal O ((past ++ [e]).filterMap Event.performed) q := by
  rw [List.filterMap_append,List.filterMap_cons_none he,List.filterMap_nil,List.append_nil]
  exact h

theorem follows_update (h : ∀ j, Follows j past (status j)) {i : ι} {e : Event ι Op Res}
    (he : e.client = i) {now : Status Op Res} (hi : Follows i (past ++ [e]) now) (j : ι) :
    Follows j (past ++ [e]) (Function.update status i now j) := by
  by_cases hij : j = i
  · subst hij
    rw [Function.update_self]
    exact hi
  · rw [Function.update_of_ne hij]
    exact .other (h j) (by rw [he]; exact Ne.symm hij)

namespace Linearized

theorem invoke (h : Linearized O past q status) {i : ι} (hi : status i = .idle) (op : Op) :
    Linearized O (past ++ [.invoke i op]) q (Function.update status i (.pending op)) :=
  ⟨h.legal.pass rfl,follows_update h.follows rfl (.invoke (hi ▸ h.follows i))⟩

theorem perform (h : Linearized O past q status) {i : ι} {op : Op} {res : Res} {q' : Q}
    (hi : status i = .pending op) (happly : O.apply op q = (res,q')) :
    Linearized O (past ++ [.perform i op res]) q' (Function.update status i (.done op res)) := by
  refine ⟨?_,follows_update h.follows rfl (.perform (hi ▸ h.follows i))⟩
  simpa [Event.performed] using h.legal.perform happly

theorem respond (h : Linearized O past q status) {i : ι} {op : Op} {res : Res}
    (hi : status i = .done op res) :
    Linearized O (past ++ [.respond i op res]) q (Function.update status i .idle) :=
  ⟨h.legal.pass rfl,follows_update h.follows rfl (.respond (hi ▸ h.follows i))⟩

theorem abort (h : Linearized O past q status) {i : ι} {op : Op} (hi : status i = .pending op) :
    Linearized O (past ++ [.abort i op]) q (Function.update status i .idle) :=
  ⟨h.legal.pass rfl,follows_update h.follows rfl (.abort (hi ▸ h.follows i))⟩

/-- One step of any kind keeps a history linearized. -/
theorem move (h : Linearized O past q status) {events : List (Event ι Op Res)}
    {y : Q × (ι → Status Op Res)} (hmove : Move O (q,status) events y) :
    Linearized O (past ++ events) y.1 y.2 := by
  cases hmove with
  | still =>
    rw [List.append_nil]
    exact h
  | invoke i op hi => exact h.invoke hi op
  | perform i op res q' hi happly => exact h.perform hi happly
  | respond i op res hi => exact h.respond hi
  | abort i op hi => exact h.abort hi
  | whole i op res q' hi happly =>
    have hwhole := ((h.invoke hi op).perform (Function.update_self i _ _) happly).respond
      (Function.update_self i _ _)
    rw [Function.update_idem,Function.update_idem,← hi,Function.update_eq_self,
      List.append_assoc,List.append_assoc] at hwhole
    exact hwhole

end Linearized

end Objects

section Systems

variable {S R Q Op Res ι : Type*} [DecidableEq ι] (M : System S) (O : AtomicObject Q Op Res)
  (view : S → Q × (ι → Status Op Res)) (output : S → List R) (emit : Op × Res → List R)

/-- A step and what it shows; the responses among it are put out. -/
structure Observed (s : S) (events : List (Event ι Op Res)) (t : S) : Prop where
  step : M.Step s t
  move : Move O (view s) events (view t)
  output : output t = output s ++ (events.filterMap Event.responded).flatMap emit

/-- The events of a run, as they happen. -/
inductive History : List (Event ι Op Res) → S → Prop
  | initial {s : S} (h : M.Initial s) : History [] s
  | step {past events : List (Event ι Op Res)} {s t : S} (h : History past s)
      (hstep : Observed M O view output emit s events t) : History (past ++ events) t

variable {M O view output emit}

theorem History.reachable {past : List (Event ι Op Res)} {s : S}
    (h : History M O view output emit past s) : M.Reachable s := by
  induction h with
  | initial h => exact .initial h
  | step _ hstep ih => exact ih.step hstep.step

theorem History.linearized (hinit : ∀ s, M.Initial s → view s = (O.start,fun _ => .idle))
    {past : List (Event ι Op Res)} {s : S} (h : History M O view output emit past s) :
    Linearized O past (view s).1 (view s).2 := by
  induction h with
  | initial h =>
    rw [hinit _ h]
    exact linearized_start
  | step _ hstep ih => exact ih.move hstep.move

theorem History.output_eq (hinit : ∀ s, M.Initial s → output s = [])
    {past : List (Event ι Op Res)} {s : S} (h : History M O view output emit past s) :
    output s = (past.filterMap Event.responded).flatMap emit := by
  induction h with
  | initial h => exact hinit _ h
  | step _ hstep ih => rw [hstep.output,ih,List.filterMap_append,List.flatMap_append]

/-- Where every step is observed, every run has a history. -/
theorem reachable_history (hobserved : ∀ s t, M.Reachable s → M.Step s t →
    ∃ events, Observed M O view output emit s events t) {s : S} (h : M.Reachable s) :
    ∃ past, History M O view output emit past s := by
  induction h with
  | initial h => exact ⟨[],.initial h⟩
  | step hs hstep ih =>
    obtain ⟨past,hpast⟩ := ih
    obtain ⟨events,hevents⟩ := hobserved _ _ hs hstep
    exact ⟨past ++ events,hpast.step hevents⟩

end Systems

end Linearization
