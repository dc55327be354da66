import RtpMulticast.Support.Machine

/-!
# Stop and wait

A sender keeps the message it offers in a slot until an exchange tells it to let go of
it, and the messages behind it in a queue.  A receiver may take what an exchange offers
whether or not the sender hears of it.

If the sender lets go exactly when the receiver takes, every message arrives once and in
order.  If it lets go only when the receiver takes, messages may arrive several times in
a row, but none is lost or overtaken.
-/

structure StopAndWait (α : Type*) where
  written : List α
  queue : List α
  slot : Option α
  taken : List α

namespace StopAndWait

variable {α : Type*}

inductive Action (α : Type*) where
  | write (x : α)
  | load
  | exchange (takes frees : Bool)

def step (s : StopAndWait α) : Action α → Option (StopAndWait α)
  | .write x => some { s with written := s.written ++ [x], queue := s.queue ++ [x] }
  | .load =>
      match s.slot, s.queue with
      | none, x :: queue => some { s with slot := some x, queue := queue }
      | _, _ => none
  | .exchange takes frees =>
      some { s with
        taken := s.taken ++ if takes then s.slot.toList else []
        slot := if frees then none else s.slot }

def machine : Machine (StopAndWait α) (Action α) where
  init s := s = ⟨[], [], none, []⟩
  step := step

/-- What the sender still has. -/
def pending (s : StopAndWait α) : List α := s.slot.toList ++ s.queue

/-- The sender lets go exactly when the receiver takes. -/
def Exact (_ : StopAndWait α) : Action α → Prop
  | .exchange takes frees => frees = takes
  | _ => True

/-- The sender lets go only when the receiver takes. -/
def Safe (_ : StopAndWait α) : Action α → Prop
  | .exchange takes frees => frees = true → takes = true
  | _ => True

/-! ## Steps -/

section Steps

variable {s s' : StopAndWait α}

theorem step_write {x : α} (h : s.step (.write x) = some s') :
    s'.written = s.written ++ [x] ∧ s'.slot = s.slot ∧ s'.queue = s.queue ++ [x] ∧
      s'.taken = s.taken := by
  obtain rfl := Option.some.inj h
  exact ⟨rfl, rfl, rfl, rfl⟩

theorem step_load (h : s.step .load = some s') :
    ∃ x, s.slot = none ∧ s.queue = x :: s'.queue ∧ s'.slot = some x ∧
      s'.written = s.written ∧ s'.taken = s.taken := by
  rcases s with ⟨written, _ | ⟨x, queue⟩, _ | y, taken⟩
  · cases h
  · cases h
  · obtain rfl := Option.some.inj h
    exact ⟨x, rfl, rfl, rfl, rfl, rfl⟩
  · cases h

end Steps

/-! ## Exactly once -/

/-- The messages that were written are those that were taken and those that are pending. -/
def ExactlyOnce (s : StopAndWait α) : Prop := s.written = s.taken ++ s.pending

theorem exactly_once {s : StopAndWait α} (h : machine.ReachableVia Exact s) :
    s.ExactlyOnce := by
  refine h.invariant ?_ ?_
  · rintro s rfl
    rfl
  · intro s a s' hinv hexact hs
    cases a with
    | write x =>
        obtain ⟨hwritten, hslot, hqueue, htaken⟩ := step_write hs
        rw [ExactlyOnce, hwritten, hinv, htaken, pending, pending, hslot, hqueue,
          List.append_assoc, List.append_assoc]
    | load =>
        obtain ⟨x, hslot, hqueue, hslot', hwritten, htaken⟩ := step_load hs
        rw [ExactlyOnce, hwritten, hinv, htaken, pending, pending, hslot, hqueue, hslot']
        rfl
    | exchange takes frees =>
        obtain rfl : frees = takes := hexact
        obtain rfl := Option.some.inj hs
        cases frees with
        | false => simpa [ExactlyOnce, pending] using hinv
        | true => simpa [ExactlyOnce, pending] using hinv

/-! ## At least once -/

/-- Every entry of the first list stands at its place in the second one, one or more
times in a row. -/
inductive Repeats : List α → List α → Prop
  | nil : Repeats [] []
  | snoc {xs ys : List α} (x : α) (n : ℕ) :
      Repeats xs ys → Repeats (xs ++ [x]) (ys ++ List.replicate (n + 1) x)

/-- Everything written is taken or pending, in order; the receiver may see a message
again and again until the sender lets go of it. -/
def AtLeastOnce (s : StopAndWait α) : Prop :=
  ∃ done copies n, s.written = done ++ s.pending ∧ Repeats done copies ∧
    s.taken = copies ++ (List.replicate n s.slot.toList).flatten

theorem at_least_once {s : StopAndWait α} (h : machine.ReachableVia Safe s) :
    s.AtLeastOnce := by
  refine h.invariant ?_ ?_
  · rintro s rfl
    exact ⟨[], [], 0, rfl, .nil, rfl⟩
  · rintro s a s' ⟨done, copies, n, hinv, hrepeats, htaken⟩ hsafe hs
    cases a with
    | write x =>
        obtain ⟨hwritten, hslot, hqueue, htaken'⟩ := step_write hs
        refine ⟨done, copies, n, ?_, hrepeats, ?_⟩
        · rw [hwritten, hinv, pending, pending, hslot, hqueue, List.append_assoc,
            List.append_assoc]
        · rw [htaken', hslot, htaken]
    | load =>
        obtain ⟨x, hslot, hqueue, hslot', hwritten, htaken'⟩ := step_load hs
        refine ⟨done, copies, 0, ?_, hrepeats, ?_⟩
        · rw [hwritten, hinv, pending, pending, hslot, hqueue, hslot']
          rfl
        · rw [htaken', htaken, hslot]
          simp
    | exchange takes frees =>
        obtain rfl := Option.some.inj hs
        cases frees with
        | false =>
            cases takes with
            | false => exact ⟨done, copies, n, hinv, hrepeats, by simpa using htaken⟩
            | true =>
                refine ⟨done, copies, n + 1, hinv, hrepeats, ?_⟩
                simp [htaken, List.replicate_succ']
        | true =>
            obtain rfl : takes = true := hsafe rfl
            rcases s with ⟨written, queue, _ | x, taken⟩
            · exact ⟨done, copies, n, hinv, hrepeats, by simpa using htaken⟩
            · refine ⟨done ++ [x], copies ++ List.replicate (n + 1) x, 0, ?_,
                hrepeats.snoc x n, ?_⟩
              · simpa [pending] using hinv
              · have htaken : taken = copies ++ (List.replicate n [x]).flatten := htaken
                simp [htaken, List.replicate_succ']

end StopAndWait
