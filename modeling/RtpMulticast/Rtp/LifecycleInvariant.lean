import RtpMulticast.Rtp.Lifecycle

/-!
# What the calls on a sender rely on

Each phase of a call relies on facts about its session and its sender.  The
invariant collects them for all tasks, together with the list of the linked
sessions; the rules below say which of them a write can break for the other
tasks, and how a task takes and gives the mutex.
-/

namespace RtpMulticast

open LinkedList

/-! ## What the phases of the calls rely on -/

namespace TaskPc

/-- The session is in the list. -/
@[simp] def Within (x : ℕ) : TaskPc → Prop
  | .create y .linked | .create y .given | .create y .named => x = y
  | .delete y .validated | .delete y (.fetched _) | .delete y (.unnamed _)
  | .delete y .locked | .delete y (.walking _) => x = y
  | .send y .validated | .send y .addressed | .send y .locked => x = y
  | _ => False

/-- The session is not in the list. -/
@[simp] def Outside (x : ℕ) : TaskPc → Prop
  | .create y .cleared | .create y .locked | .create y (.walking _) => x = y
  | .delete y .unlinked | .delete y .given => x = y
  | _ => False

/-- The session has no successor. -/
@[simp] def Ends (x : ℕ) : TaskPc → Prop
  | .create y .cleared | .create y .locked | .create y (.walking _) => x = y
  | _ => False

/-- The id of the session is not valid. -/
@[simp] def Unnamed (x : ℕ) : TaskPc → Prop
  | .create y .cleared | .create y .locked | .create y (.walking _)
  | .create y .linked | .create y .given => x = y
  | .delete _ .checked | .delete _ .validated | .delete _ (.fetched _) => False
  | .delete y _ => x = y
  | _ => False

/-- The session has no back pointer. -/
@[simp] def Blank (x : ℕ) : TaskPc → Prop
  | .create _ .checked | .create _ .validated => False
  | .create y _ => x = y
  | _ => False

/-- The session has a back pointer. -/
@[simp] def Backed (x : ℕ) : TaskPc → Prop
  | .delete y .validated | .delete y (.fetched _) | .delete y (.unnamed _)
  | .delete y .locked | .delete y (.walking _) => x = y
  | .send y .validated | .send y .addressed | .send y .locked => x = y
  | _ => False

/-- The local copy of a back pointer is not null. -/
@[simp] def Fetched : TaskPc → Prop
  | .delete _ (.fetched sender) | .delete _ (.unnamed sender) => sender = true
  | _ => True

/-- The sender is not deleted. -/
@[simp] def NeedsSender : TaskPc → Prop
  | .create _ .checked | .create _ .validated | .create _ .cleared
  | .create _ .locked | .create _ (.walking _) => True
  | .delete _ .unlinked => True
  | .cleanup .validated | .cleanup .locked | .cleanup .refused => True
  | _ => False

/-- The call deletes the sender. -/
@[simp] def Kills : TaskPc → Prop
  | .cleanup .unnamed | .cleanup .given => True
  | _ => False

/-- The task is in its critical section. -/
@[simp] def HoldsMutex : TaskPc → Prop
  | .create _ .locked | .create _ (.walking _) | .create _ .linked => True
  | .delete _ .locked | .delete _ (.walking _) | .delete _ .unlinked => True
  | .send _ .locked => True
  | .cleanup .locked | .cleanup .refused | .cleanup .unnamed => True
  | _ => False

/-- Where the walk along the list `L` stands. -/
@[simp] def Walks (L : List ℕ) : TaskPc → Prop
  | .create _ (.walking tail) => tail ∈ L
  | .delete x (.walking prev) =>
      ∃ A B, L = A ++ prev :: B ∧ x ∈ B
  | _ => True

variable {pc : TaskPc} {x : ℕ}

theorem Outside.reshapes (h : pc.Outside x) : pc.Reshapes x := by
  unfold Outside at h
  split at h <;> simp_all [Reshapes]

theorem Blank.reshapes (h : pc.Blank x) : pc.Reshapes x := by
  unfold Blank at h
  split at h <;> simp_all [Reshapes]

theorem Ends.outside (h : pc.Ends x) : pc.Outside x := by
  unfold Ends at h
  split at h <;> simp_all

theorem Backed.within (h : pc.Backed x) : pc.Within x := by
  unfold Backed at h
  split at h <;> simp_all

theorem Reshapes.cases (h : pc.Reshapes x) : pc.Blank x ∨ pc.Outside x := by
  unfold Reshapes at h
  split at h <;> simp_all

theorem Unnamed.cases (h : pc.Unnamed x) : pc.Reshapes x ∨ pc.Backed x := by
  cases pc with
  | create y pc => cases pc <;> simp_all [Reshapes]
  | delete y pc => cases pc <;> simp_all [Reshapes]
  | idle | send | cleanup | crashed => simp at h

theorem Within.cases (h : pc.Within x) :
    pc.Blank x ∨ pc.ReliesOnSession x ∨ pc.HoldsMutex := by
  unfold Within at h
  split at h <;> simp_all [ReliesOnSession]

theorem NeedsSender.cases (h : pc.NeedsSender) :
    pc.ReliesOnSender ∨ pc.HoldsMutex := by
  unfold NeedsSender at h
  split at h <;> simp_all [ReliesOnSender]

theorem TouchesMutex.cases (h : pc.TouchesMutex) :
    pc.NeedsSender ∨ (∃ x, pc.Within x) ∨ pc.Kills := by
  unfold TouchesMutex at h
  split at h <;> simp_all

/-- What a task at `pc` relies on holds, with the sessions of `L` linked. -/
structure Ok (pc : TaskPc) (m : SenderMemory) (L : List ℕ) : Prop where
  within : ∀ x, pc.Within x → x ∈ L
  outside : ∀ x, pc.Outside x → x ∉ L
  ends : ∀ x, pc.Ends x → m.next x = none
  unnamed : ∀ x, pc.Unnamed x → (m.cells x).id ≠ rtpSessionId
  blank : ∀ x, pc.Blank x → (m.cells x).sender = false
  backed : ∀ x, pc.Backed x → (m.cells x).sender = true
  half : ∀ x, pc.HalfChecked x → (m.cells x).id = rtpSessionId →
    (m.cells x).sender = true
  fetched : pc.Fetched
  sender : pc.NeedsSender → m.id = rtpSenderId
  kills : pc.Kills → m.id ≠ rtpSenderId ∧ m.mutex = true
  walks : pc.Walks L
  running : pc ≠ .crashed

end TaskPc

/-! ## The session list -/

section Writes

variable (m : SenderMemory) (x : ℕ)

@[simp] theorem setCell_next (c : SessionCell) :
    (m.setCell x c).next = Function.update m.next x c.next := by
  funext y
  by_cases hy : y = x
  · subst hy
    simp [SenderMemory.next, SenderMemory.setCell]
  · simp [SenderMemory.next, SenderMemory.setCell, hy]

@[simp] theorem setId_next (id : UInt32) : (m.setId x id).next = m.next := by
  rw [SenderMemory.setId, setCell_next]
  exact Function.update_eq_self x m.next

@[simp] theorem setSender_next (sender : Bool) :
    (m.setSender x sender).next = m.next := by
  rw [SenderMemory.setSender, setCell_next]
  exact Function.update_eq_self x m.next

@[simp] theorem setNext_next (next : Option ℕ) :
    (m.setNext x next).next = Function.update m.next x next := by
  rw [SenderMemory.setNext, setCell_next]

theorem setId_sender (id : UInt32) (y : ℕ) :
    ((m.setId x id).cells y).sender = (m.cells y).sender := by
  by_cases hy : y = x
  · subst hy
    simp [SenderMemory.setId, SenderMemory.setCell]
  · simp [SenderMemory.setId, SenderMemory.setCell, hy]

theorem setSender_id (sender : Bool) (y : ℕ) :
    ((m.setSender x sender).cells y).id = (m.cells y).id := by
  by_cases hy : y = x
  · subst hy
    simp [SenderMemory.setSender, SenderMemory.setCell]
  · simp [SenderMemory.setSender, SenderMemory.setCell, hy]

/-- Links are written without touching the other fields. -/
theorem setNext_cells (next : Option ℕ) (y : ℕ) :
    ((m.setNext x next).cells y).id = (m.cells y).id ∧
      ((m.setNext x next).cells y).sender = (m.cells y).sender := by
  by_cases hy : y = x
  · subst hy
    simp [SenderMemory.setNext, SenderMemory.setCell]
  · simp [SenderMemory.setNext, SenderMemory.setCell, hy]

@[simp] theorem reset_next :
    (m.reset x).next = Function.update m.next x none := by
  rw [SenderMemory.reset, setCell_next]

end Writes

namespace SenderMemory

/-- The sessions of `L` are linked, and the sender is there as long as there
are any. -/
structure Ok (m : SenderMemory) (L : List ℕ) : Prop where
  chain : Chain m.next m.session L
  nodup : L.Nodup
  named : ∀ x, (m.cells x).id = rtpSessionId → x ∈ L
  alive : L ≠ [] → m.id = rtpSenderId
  mutex : m.id = rtpSenderId → m.mutex = true
  deleted : m.deleted = true → m.id ≠ rtpSenderId

variable {m : SenderMemory} {L : List ℕ} {x : ℕ}

theorem Ok.linked_iff (h : m.Ok L) : m.Linked x ↔ x ∈ L :=
  h.chain.mem_iff.symm

/-! ### Writes -/

theorem Ok.reset (h : m.Ok L) (hx : x ∉ L) : (m.reset x).Ok L where
  chain := by
    rw [reset_next]
    exact h.chain.update_of_notMem hx
  nodup := h.nodup
  named y hy := by
    by_cases hyx : y = x
    · subst hyx
      simp [SenderMemory.reset, setCell, rtpSessionId] at hy
    · simp only [SenderMemory.reset, setCell, Function.update_of_ne hyx] at hy
      exact h.named y hy
  alive := h.alive
  mutex := h.mutex
  deleted := h.deleted

/-- The first session is linked to the sender itself. -/
theorem Ok.link_first (h : m.Ok L) (hfirst : m.session = none)
    (hlast : m.next x = none) (hid : m.id = rtpSenderId) :
    ({ m with session := some x } : SenderMemory).Ok [x] := by
  have hnil := h.chain.eq_nil_iff.mpr hfirst
  subst hnil
  refine ⟨⟨rfl, hlast⟩, List.nodup_singleton x, ?_, fun _ => hid, h.mutex,
    h.deleted⟩
  intro y hy
  exact absurd (h.named y hy) (List.not_mem_nil)

/-- Further sessions are linked to the last one. -/
theorem Ok.link (h : m.Ok L) {tail : ℕ} (htail : tail ∈ L)
    (hend : m.next tail = none) (hx : x ∉ L) (hlast : m.next x = none)
    (hid : m.id = rtpSenderId) : (m.setNext tail (some x)).Ok (L ++ [x]) where
  chain := by
    rw [setNext_next]
    exact h.chain.append h.nodup htail hend hx hlast
  nodup := by
    rw [List.nodup_append]
    refine ⟨h.nodup, List.nodup_singleton x, ?_⟩
    rintro y hy z hz rfl
    rw [List.mem_singleton] at hz
    exact hx (hz ▸ hy)
  named y hy := by
    rw [(setNext_cells m tail (some x) y).1] at hy
    exact List.mem_append_left _ (h.named y hy)
  alive _ := hid
  mutex := h.mutex
  deleted := h.deleted

theorem Ok.setId (h : m.Ok L) {id : UInt32}
    (hx : id = rtpSessionId → x ∈ L) : (m.setId x id).Ok L where
  chain := by
    rw [setId_next]
    exact h.chain
  nodup := h.nodup
  named y hy := by
    by_cases hyx : y = x
    · subst hyx
      simp only [SenderMemory.setId, setCell, Function.update_self] at hy
      exact hx hy
    · simp only [SenderMemory.setId, setCell, Function.update_of_ne hyx] at hy
      exact h.named y hy
  alive := h.alive
  mutex := h.mutex
  deleted := h.deleted

theorem Ok.setSender (h : m.Ok L) (sender : Bool) :
    (m.setSender x sender).Ok L where
  chain := by
    rw [setSender_next]
    exact h.chain
  nodup := h.nodup
  named y hy := by
    rw [setSender_id] at hy
    exact h.named y hy
  alive := h.alive
  mutex := h.mutex
  deleted := h.deleted

theorem Ok.unlink_first (h : m.Ok L) (hfirst : m.session = some x)
    (hid : (m.cells x).id ≠ rtpSessionId) :
    ({ m with session := m.next x } : SenderMemory).Ok (L.erase x) where
  chain := by
    have hchain := h.chain
    rw [hfirst] at hchain
    cases L with
    | nil => cases hchain
    | cons y B =>
        obtain ⟨heq, hrest⟩ := hchain
        cases heq
        rw [List.erase_cons_head]
        exact hrest
  nodup := h.nodup.erase x
  named y hy := by
    rw [h.nodup.mem_erase_iff]
    refine ⟨?_, h.named y hy⟩
    rintro rfl
    exact hid hy
  alive hne := h.alive fun hnil => hne (by rw [hnil]; rfl)
  mutex := h.mutex
  deleted := h.deleted

theorem Ok.unlink {A B : List ℕ} {prev : ℕ} (h : m.Ok (A ++ prev :: x :: B))
    (hid : (m.cells x).id ≠ rtpSessionId) :
    (m.setNext prev (m.next x)).Ok ((A ++ prev :: x :: B).erase x) where
  chain := by
    rw [setNext_next]
    exact h.chain.unlink h.nodup
  nodup := h.nodup.erase x
  named y hy := by
    rw [(setNext_cells m prev (m.next x) y).1] at hy
    rw [h.nodup.mem_erase_iff]
    refine ⟨?_, h.named y hy⟩
    rintro rfl
    exact hid hy
  alive _ := h.alive (by simp)
  mutex := h.mutex
  deleted := h.deleted

end SenderMemory

/-! ## What the writes leave to the other tasks -/

namespace TaskPc.Ok

variable {pc : TaskPc} {m : SenderMemory} {L : List ℕ} {x : ℕ}

theorem reset (h : pc.Ok m L) (hx : x ∉ L) : pc.Ok (m.reset x) L where
  within := h.within
  outside := h.outside
  ends y hy := by
    rw [reset_next]
    by_cases hyx : y = x
    · rw [hyx, Function.update_self]
    · rw [Function.update_of_ne hyx]
      exact h.ends y hy
  unnamed y hy := by
    by_cases hyx : y = x
    · subst hyx
      simp [SenderMemory.reset, SenderMemory.setCell, rtpSessionId]
    · simp only [SenderMemory.reset, SenderMemory.setCell,
        Function.update_of_ne hyx]
      exact h.unnamed y hy
  blank y hy := by
    by_cases hyx : y = x
    · subst hyx
      simp [SenderMemory.reset, SenderMemory.setCell]
    · simp only [SenderMemory.reset, SenderMemory.setCell,
        Function.update_of_ne hyx]
      exact h.blank y hy
  backed y hy := by
    have hyx : y ≠ x := by
      rintro rfl
      exact hx (h.within y hy.within)
    simp only [SenderMemory.reset, SenderMemory.setCell,
      Function.update_of_ne hyx]
    exact h.backed y hy
  half y hy hid := by
    by_cases hyx : y = x
    · subst hyx
      simp [SenderMemory.reset, SenderMemory.setCell, rtpSessionId] at hid
    · simp only [SenderMemory.reset, SenderMemory.setCell,
        Function.update_of_ne hyx] at hid ⊢
      exact h.half y hy hid
  fetched := h.fetched
  sender := h.sender
  kills := h.kills
  walks := h.walks
  running := h.running

/-- Linking a session and changing links within the list. -/
theorem relink (h : pc.Ok m L) {m' : SenderMemory} {L' : List ℕ}
    (hid : m'.id = m.id) (hmutex : m'.mutex = m.mutex)
    (hcells : ∀ y, (m'.cells y).id = (m.cells y).id ∧
      (m'.cells y).sender = (m.cells y).sender)
    (hnext : ∀ y, y ∉ L → m'.next y = m.next y)
    (hwithin : ∀ y, pc.Within y → y ∈ L → y ∈ L')
    (houtside : ∀ y, pc.Outside y → y ∉ L → y ∉ L')
    (hfree : ¬ pc.HoldsMutex) : pc.Ok m' L' where
  within y hy := hwithin y hy (h.within y hy)
  outside y hy := houtside y hy (h.outside y hy)
  ends y hy := by
    rw [hnext y (h.outside y hy.outside)]
    exact h.ends y hy
  unnamed y hy := by
    rw [(hcells y).1]
    exact h.unnamed y hy
  blank y hy := by
    rw [(hcells y).2]
    exact h.blank y hy
  backed y hy := by
    rw [(hcells y).2]
    exact h.backed y hy
  half y hy hname := by
    rw [(hcells y).1] at hname
    rw [(hcells y).2]
    exact h.half y hy hname
  fetched := h.fetched
  sender hneeds := by
    rw [hid]
    exact h.sender hneeds
  kills hkills := by
    rw [hid, hmutex]
    exact h.kills hkills
  walks := by
    unfold TaskPc.Walks
    split
    · exact absurd trivial hfree
    · exact absurd trivial hfree
    · trivial
  running := h.running

theorem setId (h : pc.Ok m L) {id : UInt32}
    (hx : pc.Unnamed x ∨ pc.HalfChecked x → id ≠ rtpSessionId) :
    pc.Ok (m.setId x id) L where
  within := h.within
  outside := h.outside
  ends y hy := by
    rw [setId_next]
    exact h.ends y hy
  unnamed y hy := by
    by_cases hyx : y = x
    · subst hyx
      simp only [SenderMemory.setId, SenderMemory.setCell, Function.update_self]
      exact hx (.inl hy)
    · simp only [SenderMemory.setId, SenderMemory.setCell,
        Function.update_of_ne hyx]
      exact h.unnamed y hy
  blank y hy := by
    rw [setId_sender]
    exact h.blank y hy
  backed y hy := by
    rw [setId_sender]
    exact h.backed y hy
  half y hy hname := by
    rw [setId_sender]
    by_cases hyx : y = x
    · subst hyx
      simp only [SenderMemory.setId, SenderMemory.setCell,
        Function.update_self] at hname
      exact absurd hname (hx (.inr hy))
    · simp only [SenderMemory.setId, SenderMemory.setCell,
        Function.update_of_ne hyx] at hname
      exact h.half y hy hname
  fetched := h.fetched
  sender := h.sender
  kills := h.kills
  walks := h.walks
  running := h.running

theorem setSender (h : pc.Ok m L) {sender : Bool}
    (hblank : pc.Blank x → sender = false)
    (hbacked : pc.Backed x → sender = true)
    (hhalf : (m.cells x).id = rtpSessionId → sender = true) :
    pc.Ok (m.setSender x sender) L where
  within := h.within
  outside := h.outside
  ends y hy := by
    rw [setSender_next]
    exact h.ends y hy
  unnamed y hy := by
    rw [setSender_id]
    exact h.unnamed y hy
  blank y hy := by
    by_cases hyx : y = x
    · subst hyx
      simp only [SenderMemory.setSender, SenderMemory.setCell,
        Function.update_self]
      exact hblank hy
    · simp only [SenderMemory.setSender, SenderMemory.setCell,
        Function.update_of_ne hyx]
      exact h.blank y hy
  backed y hy := by
    by_cases hyx : y = x
    · subst hyx
      simp only [SenderMemory.setSender, SenderMemory.setCell,
        Function.update_self]
      exact hbacked hy
    · simp only [SenderMemory.setSender, SenderMemory.setCell,
        Function.update_of_ne hyx]
      exact h.backed y hy
  half y hy hname := by
    rw [setSender_id] at hname
    by_cases hyx : y = x
    · subst hyx
      simp only [SenderMemory.setSender, SenderMemory.setCell,
        Function.update_self]
      exact hhalf hname
    · simp only [SenderMemory.setSender, SenderMemory.setCell,
        Function.update_of_ne hyx]
      exact h.half y hy hname
  fetched := h.fetched
  sender := h.sender
  kills := h.kills
  walks := h.walks
  running := h.running

/-- Clearing the id of the sender. -/
theorem unname (h : pc.Ok m L) (hneeds : ¬ pc.NeedsSender) :
    pc.Ok { m with id := 0 } L :=
  { h with
    sender := fun hn => absurd hn hneeds
    kills := fun hk =>
      ⟨(by decide : (0 : UInt32) ≠ rtpSenderId), (h.kills hk).2⟩ }

/-- Deleting the mutex. -/
theorem cleanup (h : pc.Ok m L) (hkills : ¬ pc.Kills) :
    pc.Ok { m with mutex := false, deleted := true } L :=
  { h with kills := fun hk => absurd hk hkills }

end TaskPc.Ok

/-! ## The invariant -/

namespace Lifecycle

/-- The shared objects and all tasks fit the list `L`. -/
structure Inv (s : Lifecycle) (L : List ℕ) : Prop where
  mem : s.mem.Ok L
  task : ∀ t, (s.pc t).Ok s.mem L
  owner : ∀ t, (s.pc t).HoldsMutex → s.owner = some t
  reshapes : ∀ x t t', (s.pc t).Reshapes x → (s.pc t').Reshapes x → t = t'
  kills : ∀ t t', (s.pc t).Kills → (s.pc t').Kills → t = t'

/-- A place that at most one task has stays so when a task moves there alone. -/
theorem update_unique {α : Type*} {f : ℕ → α} {P : α → Prop} {t : ℕ} {a : α}
    (hunique : ∀ t₁ t₂, P (f t₁) → P (f t₂) → t₁ = t₂)
    (ha : P a → ∀ t', t' ≠ t → ¬ P (f t')) (t₁ t₂ : ℕ)
    (h₁ : P (Function.update f t a t₁)) (h₂ : P (Function.update f t a t₂)) :
    t₁ = t₂ := by
  by_cases ht₁ : t₁ = t <;> by_cases ht₂ : t₂ = t
  · rw [ht₁, ht₂]
  · subst ht₁
    rw [Function.update_self] at h₁
    rw [Function.update_of_ne ht₂] at h₂
    exact absurd h₂ (ha h₁ t₂ ht₂)
  · subst ht₂
    rw [Function.update_self] at h₂
    rw [Function.update_of_ne ht₁] at h₁
    exact absurd h₁ (ha h₂ t₁ ht₁)
  · rw [Function.update_of_ne ht₁] at h₁
    rw [Function.update_of_ne ht₂] at h₂
    exact hunique t₁ t₂ h₁ h₂

namespace Inv

variable {s s' : Lifecycle} {L L' : List ℕ} {t x : ℕ} {pc : TaskPc}
  {m : SenderMemory}

/-- A task writes and moves; the other tasks can live with the write. -/
theorem move (h : s.Inv L) {owner : Option ℕ} (hmem : m.Ok L')
    (hothers : ∀ t', t' ≠ t → (s.pc t').Ok m L')
    (hpc : pc.Ok m L') (hheld : pc.HoldsMutex → owner = some t)
    (howner : ∀ t', t' ≠ t → (s.pc t').HoldsMutex → owner = some t')
    (hreshapes : ∀ y, pc.Reshapes y → ∀ t', t' ≠ t →
      ¬ (s.pc t').Reshapes y)
    (hkills : pc.Kills → ∀ t', t' ≠ t → ¬ (s.pc t').Kills) :
    Inv ⟨m, owner, Function.update s.pc t pc⟩ L' where
  mem := hmem
  task t' := by
    dsimp only
    by_cases ht : t' = t
    · subst ht
      rw [Function.update_self]
      exact hpc
    · rw [Function.update_of_ne ht]
      exact hothers t' ht
  owner t' := by
    intro hold
    dsimp only at hold ⊢
    by_cases ht : t' = t
    · subst ht
      rw [Function.update_self] at hold
      exact hheld hold
    · rw [Function.update_of_ne ht] at hold
      exact howner t' ht hold
  reshapes y := update_unique (h.reshapes y) (hreshapes y)
  kills := update_unique h.kills hkills

theorem not_reshapes (h : s.Inv L) (hx : (s.pc t).Reshapes x) {t' : ℕ}
    (ht : t' ≠ t) : ¬ (s.pc t').Reshapes x :=
  fun hx' => ht (h.reshapes x t' t hx' hx)

theorem not_kills (h : s.Inv L) (hk : (s.pc t).Kills) {t' : ℕ}
    (ht : t' ≠ t) : ¬ (s.pc t').Kills :=
  fun hk' => ht (h.kills t' t hk' hk)

theorem not_holds (h : s.Inv L) (hold : (s.pc t).HoldsMutex) {t' : ℕ}
    (ht : t' ≠ t) : ¬ (s.pc t').HoldsMutex := by
  intro hold'
  have heq := h.owner t hold
  rw [h.owner t' hold'] at heq
  exact ht (Option.some.inj heq)

/-- What a task at `pc` has for itself, it had before. -/
structure Keeps (s : Lifecycle) (t : ℕ) (pc : TaskPc) : Prop where
  reshapes : ∀ x, pc.Reshapes x → (s.pc t).Reshapes x
  kills : pc.Kills → (s.pc t).Kills

/-- A write in or outside a critical section. -/
theorem write (h : s.Inv L) (hmem : m.Ok L')
    (hothers : ∀ t', t' ≠ t → (s.pc t').Ok m L') (hpc : pc.Ok m L')
    (hkeeps : Keeps s t pc) (hheld : pc.HoldsMutex → (s.pc t).HoldsMutex) :
    (s.write m t pc).Inv L' := by
  apply h.move hmem hothers hpc
  · intro hold
    exact h.owner t (hheld hold)
  · intro t' _ hold
    exact h.owner t' hold
  · intro y hy t' ht
    exact h.not_reshapes (hkeeps.reshapes y hy) ht
  · intro hk t' ht
    exact h.not_kills (hkeeps.kills hk) ht

theorem goto (h : s.Inv L) (hpc : pc.Ok s.mem L) (hkeeps : Keeps s t pc)
    (hheld : pc.HoldsMutex → (s.pc t).HoldsMutex) : (s.goto t pc).Inv L :=
  h.write h.mem (fun t' _ => h.task t') hpc hkeeps hheld

theorem take (h : s.Inv L) (hmutex : s.mem.mutex = true)
    (hpc : pc.Ok s.mem L) (hkeeps : Keeps s t pc)
    (hstep : s.take t pc = some s') : s'.Inv L := by
  rw [Lifecycle.take, if_pos hmutex] at hstep
  split at hstep
  · next hfree =>
      cases hstep
      refine h.move h.mem (fun t' _ => h.task t') hpc (fun _ => rfl) ?_ ?_ ?_
      · intro t' _ hold
        rw [h.owner t' hold] at hfree
        cases hfree
      · intro y hy t' ht
        exact h.not_reshapes (hkeeps.reshapes y hy) ht
      · intro hk t' ht
        exact h.not_kills (hkeeps.kills hk) ht
  · cases hstep

theorem give (h : s.Inv L) (hmutex : s.mem.mutex = true)
    (hold : (s.pc t).HoldsMutex) (hpc : pc.Ok s.mem L)
    (hkeeps : Keeps s t pc) (hfree : ¬ pc.HoldsMutex) :
    (s.give t pc).Inv L := by
  rw [Lifecycle.give, if_pos hmutex]
  refine h.move h.mem (fun t' _ => h.task t') hpc (absurd · hfree) ?_ ?_ ?_
  · intro t' ht hold'
    exact absurd hold' (h.not_holds hold ht)
  · intro y hy t' ht
    exact h.not_reshapes (hkeeps.reshapes y hy) ht
  · intro hk t' ht
    exact h.not_kills (hkeeps.kills hk) ht

end Inv

end Lifecycle

end RtpMulticast
