import Mathlib.Data.List.Nodup
import Mathlib.Logic.Function.Basic

/-!
# Ownership of allocated cells

Cells are numbered in the order of their allocation, and every owner holds a
list of them.  A ledger is sound when no cell has two holders or is held after
it was freed, and complete when every cell that was not freed has a holder.
Allocating, freeing and handing over keep both.  An owner that disappears with
what it holds keeps soundness only; this is a leak.
-/

structure Ledger (ι : Type*) where
  held : ι → List ℕ
  count : ℕ
  frees : ℕ → ℕ

namespace Ledger

variable {ι : Type*}

/-- No cell has two holders, and no cell is held once it was freed. -/
structure Sound (L : Ledger ι) : Prop where
  nodup : ∀ o, (L.held o).Nodup
  apart : ∀ o p b, b ∈ L.held o → b ∈ L.held p → o = p
  live : ∀ o b, b ∈ L.held o → b < L.count ∧ L.frees b = 0
  once : ∀ b, L.frees b ≤ 1
  beyond : ∀ b, L.count ≤ b → L.frees b = 0

/-- Every cell that was not freed has a holder. -/
def Complete (L : Ledger ι) : Prop :=
  ∀ b, b < L.count → L.frees b = 0 → ∃ o, b ∈ L.held o

/-- Nothing is held: every cell was freed exactly once. -/
theorem Complete.freed {L : Ledger ι} (hcomplete : L.Complete) (hsound : L.Sound)
    (hnone : ∀ o, L.held o = []) {b : ℕ} (hb : b < L.count) :
    L.frees b = 1 := by
  have honce := hsound.once b
  by_contra hne
  obtain ⟨o, ho⟩ := hcomplete b hb (by omega)
  rw [hnone o] at ho
  cases ho

section Operations

variable [DecidableEq ι]

/-- The owner `o` holds `cells` from now on. -/
def hold (L : Ledger ι) (o : ι) (cells : List ℕ) : Ledger ι :=
  { L with held := Function.update L.held o cells }

/-- A new cell. -/
def allocate (L : Ledger ι) : Ledger ι :=
  { L with count := L.count + 1 }

/-- The cell `b` is freed. -/
def free (L : Ledger ι) (b : ℕ) : Ledger ι :=
  { L with frees := Function.update L.frees b (L.frees b + 1) }

@[simp] theorem hold_held_self (L : Ledger ι) (o : ι) (cells : List ℕ) :
    (L.hold o cells).held o = cells := Function.update_self ..

theorem hold_held_of_ne (L : Ledger ι) {o p : ι} (h : p ≠ o) (cells : List ℕ) :
    (L.hold o cells).held p = L.held p := Function.update_of_ne h ..

/-- Holding what was held before changes nothing. -/
theorem hold_eq_self {L : Ledger ι} {o : ι} {cells : List ℕ}
    (h : cells = L.held o) : L.hold o cells = L := by
  subst h
  unfold hold
  rw [Function.update_eq_self]

variable {L : Ledger ι} {o p : ι} {xs ys : List ℕ} {b : ℕ}

/-! ## Losing cells -/

/-- An owner may let go of cells. -/
theorem Sound.shrink (h : L.Sound) (hsub : xs.Sublist (L.held o)) :
    (L.hold o xs).Sound := by
  have hmem : ∀ q b, b ∈ (L.hold o xs).held q → b ∈ L.held q := by
    intro q b hb
    by_cases hq : q = o
    · subst hq
      rw [hold_held_self] at hb
      exact hsub.subset hb
    · rwa [hold_held_of_ne L hq] at hb
  refine ⟨?_, ?_, ?_, h.once, h.beyond⟩
  · intro q
    by_cases hq : q = o
    · subst hq
      rw [hold_held_self]
      exact (h.nodup q).sublist hsub
    · rw [hold_held_of_ne L hq]
      exact h.nodup q
  · intro q r b hq hr
    exact h.apart q r b (hmem q b hq) (hmem r b hr)
  · intro q b hq
    exact h.live q b (hmem q b hq)

/-! ## Allocating -/

theorem Sound.allocate (h : L.Sound) (hperm : xs.Perm (L.count :: L.held o)) :
    (L.allocate.hold o xs).Sound := by
  have hcases : ∀ q b, b ∈ (L.allocate.hold o xs).held q →
      (q = o ∧ b = L.count) ∨ b ∈ L.held q := by
    intro q b hb
    by_cases hq : q = o
    · subst hq
      rw [hold_held_self, hperm.mem_iff, List.mem_cons] at hb
      exact hb.imp_left fun hb => ⟨rfl, hb⟩
    · rw [hold_held_of_ne _ hq] at hb
      exact Or.inr hb
  have hnew : ∀ q, L.count ∉ L.held q := by
    intro q hq
    exact Nat.lt_irrefl _ (h.live q _ hq).1
  refine ⟨?_, ?_, ?_, h.once, ?_⟩
  · intro q
    by_cases hq : q = o
    · subst hq
      rw [hold_held_self, hperm.nodup_iff, List.nodup_cons]
      exact ⟨hnew q, h.nodup q⟩
    · rw [hold_held_of_ne _ hq]
      exact h.nodup q
  · intro q r b hq hr
    rcases hcases q b hq with ⟨hqo, hb⟩ | hq'
    · rcases hcases r b hr with ⟨hro, -⟩ | hr'
      · exact hqo.trans hro.symm
      · exact absurd (hb ▸ hr') (hnew r)
    · rcases hcases r b hr with ⟨-, hb⟩ | hr'
      · exact absurd (hb ▸ hq') (hnew q)
      · exact h.apart q r b hq' hr'
  · intro q b hq
    rcases hcases q b hq with ⟨-, rfl⟩ | hq'
    · exact ⟨Nat.lt_succ_self _, h.beyond _ (Nat.le_refl _)⟩
    · exact ⟨Nat.lt_succ_of_lt (h.live q b hq').1, (h.live q b hq').2⟩
  · intro b hb
    exact h.beyond b (Nat.le_of_succ_le hb)

theorem Complete.allocate (h : L.Complete)
    (hperm : xs.Perm (L.count :: L.held o)) :
    (L.allocate.hold o xs).Complete := by
  intro b hb hfree
  by_cases hnew : b = L.count
  · refine ⟨o, ?_⟩
    rw [hold_held_self, hperm.mem_iff, hnew]
    exact List.mem_cons_self
  · obtain ⟨q, hq⟩ := h b (Nat.lt_of_le_of_ne (Nat.le_of_lt_succ hb) hnew) hfree
    refine ⟨q, ?_⟩
    by_cases hqo : q = o
    · subst hqo
      rw [hold_held_self, hperm.mem_iff]
      exact List.mem_cons_of_mem _ hq
    · rw [hold_held_of_ne _ hqo]
      exact hq

/-! ## Freeing -/

theorem Sound.free (h : L.Sound) (hperm : (L.held o).Perm (b :: xs)) :
    ((L.free b).hold o xs).Sound := by
  have hb : b ∈ L.held o := hperm.mem_iff.mpr List.mem_cons_self
  have hnodup : (b :: xs).Nodup := hperm.nodup_iff.mp (h.nodup o)
  obtain ⟨hnot, hxs⟩ := List.nodup_cons.mp hnodup
  have hmem : ∀ q c, c ∈ ((L.free b).hold o xs).held q → c ∈ L.held q ∧ c ≠ b := by
    intro q c hc
    by_cases hq : q = o
    · subst hq
      rw [hold_held_self] at hc
      refine ⟨hperm.mem_iff.mpr (List.mem_cons_of_mem _ hc), ?_⟩
      rintro rfl
      exact hnot hc
    · rw [hold_held_of_ne _ hq] at hc
      refine ⟨hc, ?_⟩
      rintro rfl
      exact hq (h.apart q o c hc hb)
  have hfrees : ∀ c, c ≠ b → (L.free b).frees c = L.frees c := fun c hc =>
    Function.update_of_ne hc ..
  have hself : (L.free b).frees b = 1 := by
    simp [Ledger.free, (h.live o b hb).2]
  refine ⟨?_, ?_, ?_, ?_, ?_⟩
  · intro q
    by_cases hq : q = o
    · subst hq
      rw [hold_held_self]
      exact hxs
    · rw [hold_held_of_ne _ hq]
      exact h.nodup q
  · intro q r c hq hr
    exact h.apart q r c (hmem q c hq).1 (hmem r c hr).1
  · intro q c hq
    obtain ⟨hcq, hne⟩ := hmem q c hq
    refine ⟨(h.live q c hcq).1, ?_⟩
    change (L.free b).frees c = 0
    rw [hfrees c hne]
    exact (h.live q c hcq).2
  · intro c
    change (L.free b).frees c ≤ 1
    by_cases hc : c = b
    · rw [hc]
      exact Nat.le_of_eq hself
    · rw [hfrees c hc]
      exact h.once c
  · intro c hc
    change (L.free b).frees c = 0
    have hne : c ≠ b := by
      rintro rfl
      exact absurd (h.live o c hb).1 (Nat.not_lt.mpr hc)
    rw [hfrees c hne]
    exact h.beyond c hc

theorem Complete.free (h : L.Complete) (hperm : (L.held o).Perm (b :: xs)) :
    ((L.free b).hold o xs).Complete := by
  intro c hc hfree
  have hne : c ≠ b := by
    rintro rfl
    change Function.update L.frees c (L.frees c + 1) c = 0 at hfree
    rw [Function.update_self] at hfree
    cases hfree
  have hfree' : L.frees c = 0 := by
    rw [← hfree]
    exact (Function.update_of_ne hne ..).symm
  obtain ⟨q, hq⟩ := h c hc hfree'
  refine ⟨q, ?_⟩
  by_cases hqo : q = o
  · subst hqo
    rw [hold_held_self]
    exact (List.mem_cons.mp (hperm.mem_iff.mp hq)).resolve_left hne
  · rw [hold_held_of_ne _ hqo]
    exact hq

/-! ## Handing over -/

/-- Where a cell was before it changed hands. -/
theorem mem_transfer (hperm : (xs ++ ys).Perm (L.held o ++ L.held p)) {q : ι}
    (hb : b ∈ ((L.hold o xs).hold p ys).held q) :
    b ∈ L.held q ∧ q ≠ o ∧ q ≠ p ∨
      (b ∈ L.held o ∨ b ∈ L.held p) ∧ (q = o ∧ b ∈ xs ∨ q = p ∧ b ∈ ys) := by
  by_cases hqp : q = p
  · subst hqp
    rw [hold_held_self] at hb
    exact Or.inr ⟨List.mem_append.mp
      (hperm.mem_iff.mp (List.mem_append_right _ hb)), Or.inr ⟨rfl, hb⟩⟩
  · rw [hold_held_of_ne _ hqp] at hb
    by_cases hqo : q = o
    · subst hqo
      rw [hold_held_self] at hb
      exact Or.inr ⟨List.mem_append.mp
        (hperm.mem_iff.mp (List.mem_append_left _ hb)), Or.inl ⟨rfl, hb⟩⟩
    · rw [hold_held_of_ne _ hqo] at hb
      exact Or.inl ⟨hb, hqo, hqp⟩

theorem Sound.transfer (h : L.Sound) (hne : o ≠ p)
    (hperm : (xs ++ ys).Perm (L.held o ++ L.held p)) :
    ((L.hold o xs).hold p ys).Sound := by
  have hdisjoint : List.Disjoint (L.held o) (L.held p) := by
    intro b ho hp
    exact hne (h.apart o p b ho hp)
  have hnodup : (xs ++ ys).Nodup :=
    hperm.nodup_iff.mpr ((h.nodup o).append (h.nodup p) hdisjoint)
  refine ⟨?_, ?_, ?_, h.once, h.beyond⟩
  · intro q
    by_cases hqp : q = p
    · subst hqp
      rw [hold_held_self]
      exact (List.nodup_append'.mp hnodup).2.1
    · rw [hold_held_of_ne _ hqp]
      by_cases hqo : q = o
      · subst hqo
        rw [hold_held_self]
        exact (List.nodup_append'.mp hnodup).1
      · rw [hold_held_of_ne _ hqo]
        exact h.nodup q
  · intro q r b hq hr
    rcases mem_transfer hperm hq with ⟨hq', hqo, hqp⟩ | ⟨hb, hq'⟩
    · rcases mem_transfer hperm hr with ⟨hr', -, -⟩ | ⟨hb | hb, -⟩
      · exact h.apart q r b hq' hr'
      · exact absurd (h.apart q o b hq' hb) hqo
      · exact absurd (h.apart q p b hq' hb) hqp
    · rcases mem_transfer hperm hr with ⟨hr', hro, hrp⟩ | ⟨-, hr'⟩
      · rcases hb with hb | hb
        · exact absurd (h.apart r o b hr' hb) hro
        · exact absurd (h.apart r p b hr' hb) hrp
      · have hxy := (List.nodup_append'.mp hnodup).2.2
        rcases hq' with ⟨rfl, hbx⟩ | ⟨rfl, hby⟩
        · rcases hr' with ⟨rfl, -⟩ | ⟨rfl, hby⟩
          · rfl
          · exact absurd hby (hxy hbx)
        · rcases hr' with ⟨rfl, hbx⟩ | ⟨rfl, -⟩
          · exact absurd hby (hxy hbx)
          · rfl
  · intro q b hq
    rcases mem_transfer hperm hq with ⟨hq', -, -⟩ | ⟨hb | hb, -⟩
    · exact h.live q b hq'
    · exact h.live o b hb
    · exact h.live p b hb

theorem Complete.transfer (h : L.Complete) (hne : o ≠ p)
    (hperm : (xs ++ ys).Perm (L.held o ++ L.held p)) :
    ((L.hold o xs).hold p ys).Complete := by
  intro b hb hfree
  obtain ⟨q, hq⟩ := h b hb hfree
  have hmoved : b ∈ L.held o ++ L.held p →
      ∃ r, b ∈ ((L.hold o xs).hold p ys).held r := by
    intro hmem
    rcases List.mem_append.mp (hperm.mem_iff.mpr hmem) with hx | hy
    · refine ⟨o, ?_⟩
      rw [hold_held_of_ne _ hne, hold_held_self]
      exact hx
    · refine ⟨p, ?_⟩
      rw [hold_held_self]
      exact hy
  by_cases hqo : q = o
  · subst hqo
    exact hmoved (List.mem_append_left _ hq)
  · by_cases hqp : q = p
    · subst hqp
      exact hmoved (List.mem_append_right _ hq)
    · refine ⟨q, ?_⟩
      rw [hold_held_of_ne _ hqp, hold_held_of_ne _ hqo]
      exact hq

/-! ## Steps -/

/-- One operation on a ledger; no cells but those in `dropped` are let go of. -/
inductive Step (L : Ledger ι) (dropped : List ℕ) : Ledger ι → Prop
  | same : Step L dropped L
  | allocate (o : ι) {xs : List ℕ} (hperm : xs.Perm (L.count :: L.held o)) :
      Step L dropped (L.allocate.hold o xs)
  | free (o : ι) (b : ℕ) {xs : List ℕ} (hperm : (L.held o).Perm (b :: xs)) :
      Step L dropped ((L.free b).hold o xs)
  | transfer (o p : ι) {xs ys : List ℕ} (hne : o ≠ p)
      (hperm : (xs ++ ys).Perm (L.held o ++ L.held p)) :
      Step L dropped ((L.hold o xs).hold p ys)
  | drop (o : ι) (hdropped : L.held o = dropped) : Step L dropped (L.hold o [])

variable {L' : Ledger ι} {dropped : List ℕ}

theorem Step.sound (h : L.Step dropped L') (hL : L.Sound) : L'.Sound := by
  cases h with
  | same => exact hL
  | allocate o hperm => exact hL.allocate hperm
  | free o b hperm => exact hL.free hperm
  | transfer o p hne hperm => exact hL.transfer hne hperm
  | drop o hdropped => exact hL.shrink (List.nil_sublist _)

theorem Step.complete (h : L.Step [] L') (hL : L.Complete) : L'.Complete := by
  cases h with
  | same => exact hL
  | allocate o hperm => exact hL.allocate hperm
  | free o b hperm => exact hL.free hperm
  | transfer o p hne hperm => exact hL.transfer hne hperm
  | drop o hdropped =>
      rw [hold_eq_self hdropped.symm]
      exact hL

theorem Step.frees_le (h : L.Step dropped L') (c : ℕ) : L.frees c ≤ L'.frees c := by
  cases h with
  | free o b hperm =>
      change L.frees c ≤ Function.update L.frees b (L.frees b + 1) c
      by_cases hc : c = b
      · subst hc
        rw [Function.update_self]
        exact Nat.le_succ _
      · exact Nat.le_of_eq (Function.update_of_ne hc ..).symm
  | _ => exact Nat.le_refl _

/-! ## Lost cells -/

/-- The cell was not freed and has no holder who could free it. -/
structure Lost (L : Ledger ι) (b : ℕ) : Prop where
  allocated : b < L.count
  kept : L.frees b = 0
  orphan : ∀ o, b ∉ L.held o

theorem Sound.lost_drop (h : L.Sound) (hb : b ∈ L.held o) :
    (L.hold o []).Lost b := by
  obtain ⟨hlt, hkept⟩ := h.live o b hb
  refine ⟨hlt, hkept, ?_⟩
  intro p hp
  by_cases hpo : p = o
  · subst hpo
    rw [hold_held_self] at hp
    cases hp
  · rw [hold_held_of_ne L hpo] at hp
    exact hpo (h.apart p o b hp hb)

/-- A lost cell stays lost. -/
theorem Step.lost (h : L.Step dropped L') (hb : L.Lost b) : L'.Lost b := by
  obtain ⟨hlt, hkept, horphan⟩ := hb
  have hhold : ∀ (K : Ledger ι) (o : ι) (xs : List ℕ), K.held = L.held →
      b ∉ xs → ∀ p, b ∉ (K.hold o xs).held p := by
    intro K o xs hK hxs p hp
    by_cases hpo : p = o
    · subst hpo
      rw [hold_held_self] at hp
      exact hxs hp
    · rw [hold_held_of_ne K hpo, hK] at hp
      exact horphan p hp
  cases h with
  | same => exact ⟨hlt, hkept, horphan⟩
  | allocate o hperm =>
      refine ⟨Nat.lt_succ_of_lt hlt, hkept, hhold _ o _ rfl ?_⟩
      rw [hperm.mem_iff, List.mem_cons, not_or]
      exact ⟨Nat.ne_of_lt hlt, horphan o⟩
  | free o c hperm =>
      have hc : c ∈ L.held o := hperm.mem_iff.mpr List.mem_cons_self
      have hne : b ≠ c := by
        rintro rfl
        exact horphan o hc
      refine ⟨hlt, ?_, hhold _ o _ rfl ?_⟩
      · change Function.update L.frees c _ b = 0
        rw [Function.update_of_ne hne]
        exact hkept
      · intro hxs
        exact horphan o (hperm.mem_iff.mpr (List.mem_cons_of_mem _ hxs))
  | transfer o p hne hperm =>
      refine ⟨hlt, hkept, ?_⟩
      intro q hq
      rcases mem_transfer hperm hq with ⟨hmem, -⟩ | ⟨hmem | hmem, -⟩
      · exact horphan q hmem
      · exact horphan o hmem
      · exact horphan p hmem
  | drop o hdropped => exact ⟨hlt, hkept, hhold L o [] rfl (by rintro ⟨⟩)⟩

end Operations

end Ledger
