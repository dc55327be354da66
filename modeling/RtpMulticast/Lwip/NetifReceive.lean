import RtpMulticast.Support.Machine
import RtpMulticast.Support.UsageLog
import Mathlib.Data.List.Nodup

/-!
# Receiving frames

`netif_rx_process` takes a buffer from the driver, allocates a `netif_pbuf_t`
that remembers it, and gives the pbuf inside to the stack.  The stack frees the
pbuf later through `netif_pbuf_free`, which frees both objects.  The objects of
a call carry its number.
-/

namespace RtpMulticast

open UsageLog

/-- A driver buffer or a `netif_pbuf_t`, with the call it belongs to. -/
inductive RxObject where
  | buffer (call : ℕ)
  | netifPbuf (call : ℕ)
  deriving DecidableEq, Repr

def RxObject.call : RxObject → ℕ
  | .buffer k => k
  | .netifPbuf k => k

/-- What the functions called by `netif_rx_process` answer: whether
`netif_get_interface` returns an interface, the result of `W6X_Netif_input` and
whether it stores a buffer, and whether the two allocations and the input of the
interface succeed. -/
structure RxAnswers where
  netif : Bool
  ret : Int
  buffer : Bool
  pbufAllocated : Bool
  customAlloced : Bool
  inputOk : Bool
  deriving DecidableEq, Repr

/-- The result, the operations on the objects of the call, and whether the stack
has the pbuf now. -/
structure RxResult where
  ret : Int
  ops : List (Op RxObject)
  given : Bool
  deriving DecidableEq, Repr

/-- `W6X_Netif_free`, which ignores a null pointer. -/
def w6xNetifFree (k : ℕ) (buffer : Bool) : List (Op RxObject) :=
  if buffer then [.free (.buffer k)] else []

/-- `netif_pbuf_free`: the buffer is read from the `netif_pbuf_t`, then both are
freed. -/
def netifPbufFree (k : ℕ) (buffer : Bool) : List (Op RxObject) :=
  .use (.netifPbuf k) :: w6xNetifFree k buffer ++ [.free (.netifPbuf k)]

/-- `W6X_Netif_input`: a buffer is obtained or not. -/
def w6xNetifInput (k : ℕ) (buffer : Bool) : List (Op RxObject) :=
  if buffer then [.alloc (.buffer k)] else []

/-- `netif_pbuf_alloc`, when there is memory. -/
def netifPbufAlloc (k : ℕ) : List (Op RxObject) :=
  [.alloc (.netifPbuf k), .use (.netifPbuf k)]

/-- `pbuf_alloced_custom` and the input of the interface look at the pbuf. -/
def pbufAllocedCustom (k : ℕ) : List (Op RxObject) :=
  [.use (.netifPbuf k)]

/-- The call number `k` of `netif_rx_process`. -/
def netifRxProcess (k : ℕ) (a : RxAnswers) : RxResult :=
  if a.netif = false then ⟨-1, [], false⟩
  else if a.ret ≤ 0 then
    ⟨a.ret, w6xNetifInput k a.buffer ++ w6xNetifFree k a.buffer, false⟩
  else if a.pbufAllocated = false then
    ⟨-1, w6xNetifInput k a.buffer ++ w6xNetifFree k a.buffer, false⟩
  else if a.customAlloced = false then
    -- The `netif_pbuf_t` stays.
    ⟨-1, w6xNetifInput k a.buffer ++ netifPbufAlloc k ++ w6xNetifFree k a.buffer,
      false⟩
  else if a.inputOk = false then
    -- `netif_pbuf_free` frees the buffer that was just freed.
    ⟨-1, w6xNetifInput k a.buffer ++ netifPbufAlloc k ++ pbufAllocedCustom k ++
      w6xNetifFree k a.buffer ++ netifPbufFree k a.buffer, false⟩
  else
    ⟨a.ret, w6xNetifInput k a.buffer ++ netifPbufAlloc k ++ pbufAllocedCustom k, true⟩

/-- The two exits that do not release what the call owns. -/
def RxAnswers.Misreleased (a : RxAnswers) : Prop :=
  a.netif = true ∧ 0 < a.ret ∧ a.pbufAllocated = true ∧
    (a.customAlloced = false ∨ (a.inputOk = false ∧ a.buffer = true))

instance (a : RxAnswers) : Decidable a.Misreleased :=
  inferInstanceAs (Decidable (_ ∧ _))

/-! ## One call -/

section Call

variable {k : ℕ} {a : RxAnswers}

theorem mem_w6xNetifFree {b : Bool} {op : Op RxObject} :
    op ∈ w6xNetifFree k b ↔ b = true ∧ op = .free (.buffer k) := by
  unfold w6xNetifFree
  split <;> simp_all

theorem mem_w6xNetifInput {b : Bool} {op : Op RxObject} :
    op ∈ w6xNetifInput k b ↔ b = true ∧ op = .alloc (.buffer k) := by
  unfold w6xNetifInput
  split <;> simp_all

theorem mem_netifPbufFree {b : Bool} {op : Op RxObject} :
    op ∈ netifPbufFree k b ↔
      op = .use (.netifPbuf k) ∨ (b = true ∧ op = .free (.buffer k)) ∨
        op = .free (.netifPbuf k) := by
  unfold netifPbufFree
  simp only [List.mem_append, List.mem_cons, mem_w6xNetifFree, List.not_mem_nil,
    or_false]
  tauto

theorem netifPbufFree_call {b : Bool} :
    ∀ op ∈ netifPbufFree k b, op.object.call = k := by
  intro op hop
  rcases mem_netifPbufFree.mp hop with rfl | ⟨-, rfl⟩ | rfl <;> rfl

theorem netifPbufFree_clean (k : ℕ) (b : Bool) : Clean (netifPbufFree k b) := by
  cases b
  · simp [Clean, netifPbufFree, w6xNetifFree, Op.object]
  · simp [Clean, netifPbufFree, w6xNetifFree, Op.object]

/-- The operations of a call are on its own objects. -/
theorem netifRxProcess_call :
    ∀ op ∈ (netifRxProcess k a).ops, op.object.call = k := by
  intro op hop
  unfold netifRxProcess at hop
  split_ifs at hop
  all_goals
    simp only [List.mem_append, mem_w6xNetifInput, mem_w6xNetifFree,
      mem_netifPbufFree, netifPbufAlloc, pbufAllocedCustom, List.mem_cons,
      List.not_mem_nil, or_false] at hop
  · rcases hop with ⟨-, rfl⟩ | ⟨-, rfl⟩ <;> rfl
  · rcases hop with ⟨-, rfl⟩ | ⟨-, rfl⟩ <;> rfl
  · rcases hop with (⟨-, rfl⟩ | rfl | rfl) | ⟨-, rfl⟩ <;> rfl
  · rcases hop with (((⟨-, rfl⟩ | rfl | rfl) | rfl) | ⟨-, rfl⟩) |
      rfl | ⟨-, rfl⟩ | rfl <;> rfl
  · rcases hop with (⟨-, rfl⟩ | rfl | rfl) | rfl <;> rfl

/-- A call that gives its pbuf to the stack frees nothing. -/
theorem netifRxProcess_given (h : (netifRxProcess k a).given = true) :
    (netifRxProcess k a).ops =
      w6xNetifInput k a.buffer ++ netifPbufAlloc k ++ pbufAllocedCustom k := by
  unfold netifRxProcess at h ⊢
  split_ifs at h ⊢
  rfl

theorem not_free_of_given (h : (netifRxProcess k a).given = true) (o : RxObject) :
    .free o ∉ (netifRxProcess k a).ops := by
  rw [netifRxProcess_given h]
  simp [mem_w6xNetifInput, netifPbufAlloc, pbufAllocedCustom]

theorem alloc_of_given (h : (netifRxProcess k a).given = true) {o : RxObject}
    (ho : .alloc o ∈ (netifRxProcess k a).ops) :
    o = .netifPbuf k ∨ (a.buffer = true ∧ o = .buffer k) := by
  rw [netifRxProcess_given h] at ho
  simp only [List.mem_append, mem_w6xNetifInput, netifPbufAlloc, pbufAllocedCustom,
    List.mem_cons, List.not_mem_nil, or_false, reduceCtorEq, Op.alloc.injEq] at ho
  tauto

/-- The other exits free what was allocated, the two bad ones apart. -/
theorem netifRxProcess_released (h : ¬ a.Misreleased)
    (hgiven : (netifRxProcess k a).given = false) {o : RxObject}
    (ho : .alloc o ∈ (netifRxProcess k a).ops) :
    .free o ∈ (netifRxProcess k a).ops := by
  unfold netifRxProcess at ho hgiven ⊢
  unfold RxAnswers.Misreleased at h
  split_ifs at ho hgiven ⊢ with hnetif hret halloc hcustom hinput
  · cases ho
  · simpa [mem_w6xNetifInput, mem_w6xNetifFree] using ho
  · simpa [mem_w6xNetifInput, mem_w6xNetifFree] using ho
  · exact absurd ⟨by simpa using hnetif, by omega, by simpa using halloc,
      Or.inl hcustom⟩ h
  · simp only [List.mem_append, mem_w6xNetifInput, mem_w6xNetifFree,
      mem_netifPbufFree, netifPbufAlloc, pbufAllocedCustom, List.mem_cons,
      List.not_mem_nil, or_false, reduceCtorEq, and_false, Op.alloc.injEq] at ho
    rcases ho with ⟨hbuffer, rfl⟩ | rfl
    · exact absurd ⟨by simpa using hnetif, by omega, by simpa using halloc,
        Or.inr ⟨hinput, hbuffer⟩⟩ h
    · simp [mem_netifPbufFree]

theorem netifRxProcess_clean (h : ¬ a.Misreleased) : Clean (netifRxProcess k a).ops := by
  unfold netifRxProcess
  unfold RxAnswers.Misreleased at h
  split_ifs with hnetif hret halloc hcustom hinput
  · exact clean_nil
  · cases a.buffer <;> simp [Clean, w6xNetifInput, w6xNetifFree]
  · cases a.buffer <;> simp [Clean, w6xNetifInput, w6xNetifFree]
  · exact absurd ⟨by simpa using hnetif, by omega, by simpa using halloc,
      Or.inl hcustom⟩ h
  · cases hbuffer : a.buffer with
    | true =>
        exact absurd ⟨by simpa using hnetif, by omega, by simpa using halloc,
          Or.inr ⟨hinput, hbuffer⟩⟩ h
    | false =>
        simp [Clean, w6xNetifInput, w6xNetifFree, netifPbufFree, netifPbufAlloc,
          pbufAllocedCustom]
  · cases a.buffer <;> simp [Clean, w6xNetifInput, netifPbufAlloc, pbufAllocedCustom]

/-- The bad exits: a buffer freed twice, or a `netif_pbuf_t` that nobody has. -/
theorem netifRxProcess_misreleased (h : a.Misreleased) :
    ¬ Clean (netifRxProcess k a).ops ∨
      ((netifRxProcess k a).given = false ∧
        Unfreed (netifRxProcess k a).ops (.netifPbuf k)) := by
  obtain ⟨hnetif, hret, halloc, hbad⟩ := h
  have hpos : ¬ a.ret ≤ 0 := by omega
  cases hcustom : a.customAlloced with
  | false =>
      right
      simp [netifRxProcess, Unfreed, hnetif, hpos, halloc, hcustom, netifPbufAlloc,
        mem_w6xNetifFree, mem_w6xNetifInput]
  | true =>
      obtain ⟨hinput, hbuffer⟩ := hbad.resolve_left (by simp [hcustom])
      left
      intro hclean
      have hcount := hclean.count_free_le (.buffer k)
      simp [netifRxProcess, hnetif, hpos, halloc, hcustom, hinput, hbuffer,
        w6xNetifInput, w6xNetifFree, netifPbufAlloc, pbufAllocedCustom,
        netifPbufFree] at hcount

end Call

/-! ## The task and the stack -/

/-- A pbuf that the stack has: the call it is from, and whether it carries a
driver buffer. -/
structure HeldPbuf where
  call : ℕ
  buffer : Bool
  deriving DecidableEq, Repr

/-- Calls so far with their answers, the log of all operations, and the pbufs
that the stack has not freed yet. -/
structure NetifRx where
  calls : ℕ
  answers : List RxAnswers
  ops : List (Op RxObject)
  stack : List HeldPbuf
  deriving DecidableEq, Repr

inductive NetifRxAction where
  /-- `netif_task` calls `netif_rx_process`. -/
  | receive (a : RxAnswers)
  /-- The stack reads the frame of a pbuf it has. -/
  | stackUse (call : ℕ)
  /-- The stack frees a pbuf it has. -/
  | stackFree (call : ℕ)
  deriving DecidableEq, Repr

/-- Reading a frame: the pbuf and the payload behind it. -/
def usePbuf (e : HeldPbuf) : List (Op RxObject) :=
  .use (.netifPbuf e.call) :: (if e.buffer then [.use (.buffer e.call)] else [])

def NetifRx.receive (s : NetifRx) (a : RxAnswers) : NetifRx where
  calls := s.calls + 1
  answers := s.answers ++ [a]
  ops := s.ops ++ (netifRxProcess s.calls a).ops
  stack :=
    if (netifRxProcess s.calls a).given then s.stack ++ [⟨s.calls, a.buffer⟩]
    else s.stack

def NetifRx.step (s : NetifRx) : NetifRxAction → Option NetifRx
  | .receive a => some (s.receive a)
  | .stackUse call =>
      match s.stack.find? fun e => e.call = call with
      | some e => some { s with ops := s.ops ++ usePbuf e }
      | none => none
  | .stackFree call =>
      match s.stack.find? fun e => e.call = call with
      | some e =>
          some { s with
            ops := s.ops ++ netifPbufFree e.call e.buffer
            stack := s.stack.filter fun f => f.call ≠ e.call }
      | none => none

def netifRx : Machine NetifRx NetifRxAction where
  init s := s = ⟨0, [], [], []⟩
  step := NetifRx.step

/-- The stack is going to free the object. -/
def NetifRx.Held (s : NetifRx) (o : RxObject) : Prop :=
  ∃ e ∈ s.stack, o = .netifPbuf e.call ∨ (e.buffer = true ∧ o = .buffer e.call)

/-- Nothing is used or freed after its free, and whatever was obtained was freed
once or is with the stack, which is going to. -/
structure NetifRx.Accounted (s : NetifRx) : Prop where
  clean : Clean s.ops
  freed : ∀ o, .alloc o ∈ s.ops → s.ops.count (.free o) = 1 ∨ s.Held o

/-- The object is not freed, and its call gave nothing to the stack. -/
def NetifRx.Leaked (s : NetifRx) (o : RxObject) : Prop :=
  Unfreed s.ops o ∧ ∀ e ∈ s.stack, e.call ≠ o.call

structure NetifRx.Books (s : NetifRx) : Prop where
  below : ∀ op ∈ s.ops, op.object.call < s.calls
  heldBelow : ∀ e ∈ s.stack, e.call < s.calls
  heldLive : ∀ e ∈ s.stack, ∀ o : RxObject, o.call = e.call → .free o ∉ s.ops
  heldBuffer : ∀ e ∈ s.stack, .alloc (.buffer e.call) ∈ s.ops → e.buffer = true
  good : (∀ a ∈ s.answers, ¬ a.Misreleased) → s.Accounted
  bad : (∃ a ∈ s.answers, a.Misreleased) → ¬ Clean s.ops ∨ ∃ o, s.Leaked o

section Steps

variable {s : NetifRx} {a : RxAnswers} {e : HeldPbuf}

theorem find_held {call : ℕ} (h : (s.stack.find? fun e => e.call = call) = some e) :
    e ∈ s.stack ∧ e.call = call :=
  ⟨List.mem_of_find?_eq_some h, by simpa using List.find?_some h⟩

/-- An object of an earlier call is not touched by a new one. -/
theorem NetifRx.Books.apart (h : s.Books) {o : RxObject} (ho : .free o ∈ s.ops) :
    ∀ b ∈ (netifRxProcess s.calls a).ops, b.object ≠ o := by
  rintro b hb rfl
  have hlt := h.below _ ho
  have hcall := netifRxProcess_call b hb
  change b.object.call < s.calls at hlt
  omega

theorem NetifRx.Books.receive_good (h : s.Books)
    (hgood : ∀ b ∈ s.answers ++ [a], ¬ b.Misreleased) : (s.receive a).Accounted := by
  obtain ⟨hclean, hfreed⟩ := h.good fun b hb => hgood b (List.mem_append_left _ hb)
  have ha := hgood a (List.mem_append_right _ List.mem_cons_self)
  have hclean' : Clean (s.receive a).ops :=
    clean_append.mpr ⟨hclean, netifRxProcess_clean ha, fun o ho => h.apart ho⟩
  refine ⟨hclean', fun o ho => ?_⟩
  rcases List.mem_append.mp ho with ho | ho
  · rcases hfreed o ho with hcount | ⟨e, he, heo⟩
    · refine Or.inl (hclean'.count_free_eq (List.mem_append_left _ ?_))
      rw [← List.count_pos_iff, hcount]
      exact Nat.one_pos
    · refine Or.inr ⟨e, ?_, heo⟩
      simp only [NetifRx.receive]
      split
      · exact List.mem_append_left _ he
      · exact he
  · cases hgiven : (netifRxProcess s.calls a).given with
    | false =>
        exact Or.inl (hclean'.count_free_eq
          (List.mem_append_right _ (netifRxProcess_released ha hgiven ho)))
    | true =>
        refine Or.inr ⟨⟨s.calls, a.buffer⟩, ?_, alloc_of_given hgiven ho⟩
        simp [NetifRx.receive, hgiven]

theorem NetifRx.Books.receive_bad (h : s.Books)
    (hbad : ∃ b ∈ s.answers ++ [a], b.Misreleased) :
    ¬ Clean (s.receive a).ops ∨ ∃ o, (s.receive a).Leaked o := by
  have hstack : ∀ e ∈ (s.receive a).stack, e ∈ s.stack ∨ e.call = s.calls := by
    intro e he
    simp only [NetifRx.receive] at he
    split at he
    · rcases List.mem_append.mp he with he | he
      · exact Or.inl he
      · rw [List.mem_singleton] at he
        exact Or.inr (by rw [he])
    · exact Or.inl he
  obtain ⟨b, hb, hmis⟩ := hbad
  rcases List.mem_append.mp hb with hb | hb
  · rcases h.bad ⟨b, hb, hmis⟩ with hnot | ⟨o, ⟨halloc, hfree⟩, hapart⟩
    · exact Or.inl fun hclean => hnot (clean_append.mp hclean).1
    · -- Later calls have other numbers.
      have hlt : o.call < s.calls := h.below _ halloc
      refine Or.inr ⟨o, ⟨List.mem_append_left _ halloc, ?_⟩, ?_⟩
      · intro hmem
        refine (List.mem_append.mp hmem).elim hfree fun hnew => ?_
        have hcall := netifRxProcess_call _ hnew
        change o.call = s.calls at hcall
        omega
      · intro e he
        rcases hstack e he with he | he
        · exact hapart e he
        · omega
  · rw [List.mem_singleton] at hb
    subst hb
    rcases netifRxProcess_misreleased (k := s.calls) hmis with hnot | ⟨hgiven, halloc, hfree⟩
    · exact Or.inl fun hclean => hnot (clean_append.mp hclean).2.1
    · refine Or.inr ⟨.netifPbuf s.calls, ⟨List.mem_append_right _ halloc, ?_⟩, ?_⟩
      · intro hmem
        rcases List.mem_append.mp hmem with hold | hnew
        · exact Nat.lt_irrefl _ (h.below _ hold)
        · exact hfree hnew
      · intro e he
        have he : e ∈ s.stack := by
          simpa [NetifRx.receive, hgiven] using he
        exact Nat.ne_of_lt (h.heldBelow e he)

theorem NetifRx.Books.receive (h : s.Books) : (s.receive a).Books := by
  refine ⟨?_, ?_, ?_, ?_, h.receive_good, h.receive_bad⟩
  · intro op hop
    rcases List.mem_append.mp hop with hop | hop
    · exact Nat.lt_succ_of_lt (h.below op hop)
    · rw [netifRxProcess_call op hop]
      exact Nat.lt_succ_self _
  · intro e he
    simp only [NetifRx.receive] at he
    split at he
    · rcases List.mem_append.mp he with he | he
      · exact Nat.lt_succ_of_lt (h.heldBelow e he)
      · rw [List.mem_singleton] at he
        rw [he]
        exact Nat.lt_succ_self _
    · exact Nat.lt_succ_of_lt (h.heldBelow e he)
  · intro e he o ho hmem
    simp only [NetifRx.receive] at he
    rcases List.mem_append.mp hmem with hold | hnew
    · have hlt : o.call < s.calls := h.below _ hold
      split at he
      · rcases List.mem_append.mp he with he | he
        · exact h.heldLive e he o ho hold
        · rw [List.mem_singleton] at he
          rw [he] at ho
          exact Nat.ne_of_lt hlt ho
      · exact h.heldLive e he o ho hold
    · have hcall : o.call = s.calls := netifRxProcess_call _ hnew
      split at he
      · rename_i hgiven
        exact not_free_of_given hgiven o hnew
      · have hlt := h.heldBelow e he
        omega
  · intro e he hmem
    simp only [NetifRx.receive] at he
    rcases List.mem_append.mp hmem with hold | hnew
    · have hlt : e.call < s.calls := h.below _ hold
      split at he
      · rcases List.mem_append.mp he with he | he
        · exact h.heldBuffer e he hold
        · rw [List.mem_singleton] at he
          rw [he] at hlt
          exact absurd hlt (Nat.lt_irrefl _)
      · exact h.heldBuffer e he hold
    · have hcall : e.call = s.calls := netifRxProcess_call _ hnew
      split at he
      · rename_i hgiven
        rcases List.mem_append.mp he with he | he
        · have hlt := h.heldBelow e he
          omega
        · rw [List.mem_singleton] at he
          have hbuffer := alloc_of_given hgiven hnew
          rw [he] at hbuffer ⊢
          simpa using hbuffer
      · have hlt := h.heldBelow e he
        omega

theorem usePbuf_call : ∀ op ∈ usePbuf e, op.object.call = e.call := by
  intro op hop
  unfold usePbuf at hop
  split at hop
  · rcases List.mem_cons.mp hop with rfl | hop
    · rfl
    · rw [List.mem_singleton] at hop
      rw [hop]
      rfl
  · rw [List.mem_singleton] at hop
    rw [hop]
    rfl

theorem usePbuf_use {op : Op RxObject} (h : op ∈ usePbuf e) : ∃ o, op = .use o := by
  unfold usePbuf at h
  split at h
  · rcases List.mem_cons.mp h with rfl | h
    · exact ⟨_, rfl⟩
    · exact ⟨_, List.mem_singleton.mp h⟩
  · exact ⟨_, List.mem_singleton.mp h⟩

/-- The objects of a pbuf that the stack has are alive. -/
theorem NetifRx.Books.held_apart (h : s.Books) (he : e ∈ s.stack)
    {ops : List (Op RxObject)} (hops : ∀ b ∈ ops, b.object.call = e.call) :
    ∀ o, .free o ∈ s.ops → ∀ b ∈ ops, b.object ≠ o := by
  rintro o ho b hb rfl
  exact h.heldLive e he b.object (hops b hb) ho

theorem NetifRx.Books.stackUse (h : s.Books) (he : e ∈ s.stack) :
    NetifRx.Books { s with ops := s.ops ++ usePbuf e } := by
  have hfree : ∀ o, .free o ∈ s.ops ++ usePbuf e → .free o ∈ s.ops := by
    intro o ho
    refine (List.mem_append.mp ho).resolve_right fun hnew => ?_
    obtain ⟨x, hx⟩ := usePbuf_use hnew
    cases hx
  have halloc : ∀ o, .alloc o ∈ s.ops ++ usePbuf e → .alloc o ∈ s.ops := by
    intro o ho
    refine (List.mem_append.mp ho).resolve_right fun hnew => ?_
    obtain ⟨x, hx⟩ := usePbuf_use hnew
    cases hx
  have huses : Clean (usePbuf e) := by
    refine List.pairwise_of_forall_mem_list fun a ha b _ o hao => ?_
    obtain ⟨x, hx⟩ := usePbuf_use ha
    rw [hx] at hao
    cases hao
  refine ⟨?_, h.heldBelow, ?_, ?_, ?_, ?_⟩
  · intro op hop
    rcases List.mem_append.mp hop with hop | hop
    · exact h.below op hop
    · rw [usePbuf_call op hop]
      exact h.heldBelow e he
  · exact fun f hf o ho hmem => h.heldLive f hf o ho (hfree o hmem)
  · exact fun f hf hmem => h.heldBuffer f hf (halloc _ hmem)
  · intro hgood
    obtain ⟨hclean, hfreed⟩ := h.good hgood
    have hclean' : Clean (s.ops ++ usePbuf e) :=
      clean_append.mpr ⟨hclean, huses, h.held_apart he usePbuf_call⟩
    refine ⟨hclean', fun o ho => (hfreed o (halloc o ho)).imp_left fun hcount => ?_⟩
    refine hclean'.count_free_eq (List.mem_append_left _ ?_)
    rw [← List.count_pos_iff, hcount]
    exact Nat.one_pos
  · intro hbad
    rcases h.bad hbad with hnot | ⟨o, ⟨ho, hfree'⟩, hapart⟩
    · exact Or.inl fun hclean => hnot (clean_append.mp hclean).1
    · exact Or.inr ⟨o, ⟨List.mem_append_left _ ho, fun hmem => hfree' (hfree o hmem)⟩,
        hapart⟩

theorem NetifRx.Books.stackFree (h : s.Books) (he : e ∈ s.stack) :
    NetifRx.Books { s with
      ops := s.ops ++ netifPbufFree e.call e.buffer
      stack := s.stack.filter fun f => f.call ≠ e.call } := by
  have hstack : ∀ f, f ∈ s.stack.filter (fun f => f.call ≠ e.call) ↔
      f ∈ s.stack ∧ f.call ≠ e.call := by
    intro f
    simp [List.mem_filter]
  have halloc : ∀ o, .alloc o ∈ s.ops ++ netifPbufFree e.call e.buffer →
      .alloc o ∈ s.ops := by
    intro o ho
    refine (List.mem_append.mp ho).resolve_right fun hnew => ?_
    simp [mem_netifPbufFree] at hnew
  have hfree : ∀ o : RxObject, o.call ≠ e.call →
      .free o ∈ s.ops ++ netifPbufFree e.call e.buffer → .free o ∈ s.ops := by
    intro o hne ho
    exact (List.mem_append.mp ho).resolve_right fun hnew => hne (netifPbufFree_call _ hnew)
  refine ⟨?_, ?_, ?_, ?_, ?_, ?_⟩
  · intro op hop
    rcases List.mem_append.mp hop with hop | hop
    · exact h.below op hop
    · rw [netifPbufFree_call op hop]
      exact h.heldBelow e he
  · exact fun f hf => h.heldBelow f ((hstack f).mp hf).1
  · intro f hf o ho hmem
    obtain ⟨hf, hne⟩ := (hstack f).mp hf
    exact h.heldLive f hf o ho (hfree o (ho ▸ hne) hmem)
  · exact fun f hf hmem => h.heldBuffer f ((hstack f).mp hf).1 (halloc _ hmem)
  · intro hgood
    obtain ⟨hclean, hfreed⟩ := h.good hgood
    have hclean' : Clean (s.ops ++ netifPbufFree e.call e.buffer) :=
      clean_append.mpr ⟨hclean, netifPbufFree_clean _ _,
        h.held_apart he netifPbufFree_call⟩
    refine ⟨hclean', fun o ho => ?_⟩
    rcases hfreed o (halloc o ho) with hcount | ⟨f, hf, hfo⟩
    · refine Or.inl (hclean'.count_free_eq (List.mem_append_left _ ?_))
      rw [← List.count_pos_iff, hcount]
      exact Nat.one_pos
    · by_cases hcall : f.call = e.call
      · -- It belongs to the pbuf that is freed now.
        refine Or.inl (hclean'.count_free_eq (List.mem_append_right _ ?_))
        rw [mem_netifPbufFree]
        rcases hfo with rfl | ⟨-, rfl⟩
        · rw [hcall]
          exact Or.inr (Or.inr rfl)
        · rw [hcall] at ho ⊢
          exact Or.inr (Or.inl ⟨h.heldBuffer e he (halloc _ ho), rfl⟩)
      · exact Or.inr ⟨f, (hstack f).mpr ⟨hf, hcall⟩, hfo⟩
  · intro hbad
    rcases h.bad hbad with hnot | ⟨o, ⟨ho, hfree'⟩, hapart⟩
    · exact Or.inl fun hclean => hnot (clean_append.mp hclean).1
    · refine Or.inr ⟨o, ⟨List.mem_append_left _ ho, fun hmem => hfree' ?_⟩, ?_⟩
      · exact hfree o (hapart e he).symm hmem
      · exact fun f hf => hapart f ((hstack f).mp hf).1

theorem NetifRx.Books.step {s' : NetifRx} {act : NetifRxAction} (h : s.Books)
    (hs : netifRx.step s act = some s') : s'.Books := by
  cases act with
  | receive a =>
      simp only [netifRx, NetifRx.step, Option.some.injEq] at hs
      exact hs ▸ h.receive
  | stackUse call =>
      simp only [netifRx, NetifRx.step] at hs
      split at hs
      · rename_i e he
        simp only [Option.some.injEq] at hs
        exact hs ▸ h.stackUse (find_held he).1
      · cases hs
  | stackFree call =>
      simp only [netifRx, NetifRx.step] at hs
      split at hs
      · rename_i e he
        simp only [Option.some.injEq] at hs
        exact hs ▸ h.stackFree (find_held he).1
      · cases hs

end Steps

theorem netifRx_books {s : NetifRx} (h : netifRx.Reachable s) : s.Books := by
  refine h.invariant ?_ fun s a s' hinv _ hs => hinv.step hs
  rintro s rfl
  refine ⟨by simp, by simp, by simp, by simp, fun _ => ⟨clean_nil, by simp⟩, ?_⟩
  rintro ⟨a, ha, -⟩
  cases ha

/-- In every run, all objects are accounted for exactly when no call took one of
the two exits that do not release what they own: `pbuf_alloced_custom` failed, or
the input of the interface failed for a frame in a driver buffer. -/
theorem accounted_iff {s : NetifRx} (h : netifRx.Reachable s) :
    s.Accounted ↔ ∀ a ∈ s.answers, ¬ a.Misreleased := by
  have hbooks := netifRx_books h
  constructor
  · rintro ⟨hclean, hfreed⟩ a ha hmis
    rcases hbooks.bad ⟨a, ha, hmis⟩ with hnot | ⟨o, ⟨halloc, hfree⟩, hapart⟩
    · exact hnot hclean
    · rcases hfreed o halloc with hcount | ⟨e, he, heo⟩
      · rw [List.count_eq_zero_of_not_mem hfree] at hcount
        cases hcount
      · rcases heo with rfl | ⟨-, rfl⟩
        · exact hapart e he rfl
        · exact hapart e he rfl
  · exact hbooks.good

/-- A frame that the stack takes, looks at and frees, and one that comes when
there is no memory for a `netif_pbuf_t`. -/
def twoFrames : List NetifRxAction :=
  [.receive ⟨true, 60, true, true, true, true⟩, .stackUse 0,
    .receive ⟨true, 60, true, false, true, true⟩, .stackFree 0]

theorem accounted_two_frames : ∃ s : NetifRx, netifRx.Reachable s ∧
    s.calls = 2 ∧ s.stack = [] ∧ s.Accounted := by
  have hrun : (netifRx.run ⟨0, [], [], []⟩ twoFrames).map
      (fun s => (s.calls, s.stack, decide (∀ a ∈ s.answers, ¬ a.Misreleased))) =
        some (2, [], true) := by
    decide +kernel
  obtain ⟨s, hs, heq⟩ := Option.map_eq_some_iff.mp hrun
  simp only [Prod.mk.injEq] at heq
  obtain ⟨hcalls, hstack, hgood⟩ := heq
  have hreach := Machine.reachable_of_run rfl _ hs
  exact ⟨s, hreach, hcalls, hstack, (accounted_iff hreach).mpr (of_decide_eq_true hgood)⟩

/-- The interface refuses a frame: its buffer is freed twice. -/
theorem buffer_freed_twice : ∃ s : NetifRx, netifRx.Reachable s ∧
    s.ops.count (.free (.buffer 0)) = 2 ∧ ¬ s.Accounted := by
  have hrun : (netifRx.run ⟨0, [], [], []⟩
      [.receive ⟨true, 60, true, true, true, false⟩]).map
        (fun s => s.ops.count (.free (.buffer 0))) = some 2 := by
    decide +kernel
  obtain ⟨s, hs, hcount⟩ := Option.map_eq_some_iff.mp hrun
  refine ⟨s, Machine.reachable_of_run rfl _ hs, hcount, fun haccounted => ?_⟩
  have hle := haccounted.clean.count_free_le (.buffer 0)
  omega

end RtpMulticast
