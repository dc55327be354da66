import Mathlib.Logic.Function.Iterate

/-!
# Counters that count down and reload

A counter with the reload value `load` takes the values `load`, ..., `1`, `0`
and starts again.  Its value after any number of ticks is computed from the value
at the beginning.
-/

namespace DownCounter

/-- One tick. -/
def next (load v : ℕ) : ℕ := if v = 0 then load else v - 1

/-- The value some ticks later. -/
def after (load v t : ℕ) : ℕ := (next load)^[t] v

theorem next_le {load v : ℕ} (h : v ≤ load) : next load v ≤ load := by
  rw [next]
  split
  · exact Nat.le_refl load
  · omega

theorem after_succ (load v t : ℕ) :
    after load v (t + 1) = after load (next load v) t := rfl

theorem after_add (load v s t : ℕ) :
    after load v (s + t) = after load (after load v s) t := by
  rw [after, Nat.add_comm, Function.iterate_add_apply]
  rfl

/-- In front of the first reload. -/
theorem after_of_le {load v t : ℕ} (h : t ≤ v) : after load v t = v - t := by
  induction t generalizing v with
  | zero => rfl
  | succ t ih =>
      have hnext : next load v = v - 1 := if_neg (by omega)
      rw [after_succ, hnext, ih (by omega)]
      omega

/-- The reload is one tick behind the zero. -/
theorem after_reload (load v : ℕ) : after load v (v + 1) = load := by
  have hzero : after load v v = 0 := by
    rw [after_of_le (Nat.le_refl v), Nat.sub_self]
  rw [after_add, hzero]
  rfl

theorem after_period (load v : ℕ) (h : v ≤ load) :
    after load v (load + 1) = v := by
  obtain ⟨rest, hrest⟩ := Nat.exists_eq_add_of_le h
  have hsplit : load + 1 = v + 1 + rest := by omega
  have hback : after load v (v + 1 + rest) = load - rest := by
    rw [after_add, after_reload, after_of_le (by omega)]
  rw [hsplit, hback]
  omega

theorem after_mod {load v : ℕ} (h : v ≤ load) (t : ℕ) :
    after load v (t % (load + 1)) = after load v t := by
  have hturns : ∀ n s, after load v ((load + 1) * n + s) = after load v s := by
    intro n s
    induction n with
    | zero => rw [Nat.mul_zero, Nat.zero_add]
    | succ n ih =>
        have hsplit : (load + 1) * (n + 1) + s =
            load + 1 + ((load + 1) * n + s) := by
          rw [Nat.mul_succ, Nat.add_comm ((load + 1) * n), Nat.add_assoc]
        rw [hsplit, after_add, after_period load v h, ih]
  rw [← hturns (t / (load + 1)) (t % (load + 1)), Nat.div_add_mod]

/-- The value at a place of the period, on both sides of the reload. -/
theorem after_eq {load v : ℕ} (h : v ≤ load) (t : ℕ) :
    after load v t =
      if t % (load + 1) ≤ v then v - t % (load + 1)
      else load + 1 + v - t % (load + 1) := by
  have hlt : t % (load + 1) < load + 1 := Nat.mod_lt t (Nat.succ_pos load)
  rw [← after_mod h t]
  generalize t % (load + 1) = r at hlt ⊢
  by_cases hr : r ≤ v
  · rw [if_pos hr, after_of_le hr]
  · have hsplit : r = v + 1 + (r - (v + 1)) := by omega
    have hreload : after load v (v + 1 + (r - (v + 1))) =
        load - (r - (v + 1)) := by
      rw [after_add, after_reload, after_of_le (by omega)]
    rw [if_neg hr, hsplit, hreload]
    omega

end DownCounter
