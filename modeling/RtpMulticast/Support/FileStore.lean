import Mathlib.Logic.Function.Basic
import Mathlib.Data.List.Basic

/-!
# Files whose writes become visible with the close

A file store is what later opens see.  An open file has contents of its own; the
store changes when a file is created and when its contents are committed.
-/

namespace FileStore

variable {P β : Type*}

/-- The visible contents of the files that exist. -/
abbrev Files (P β : Type*) : Type _ := P → Option (List β)

/-- The contents of a file; a file that does not exist has none. -/
def content (files : Files P β) (p : P) : List β := (files p).getD []

/-- An open that makes the file if it does not exist. -/
def create [DecidableEq P] (files : Files P β) (p : P) : Files P β :=
  Function.update files p (some (content files p))

/-- A close that writes the contents of the open file out. -/
def commit [DecidableEq P] (files : Files P β) (p : P) (data : List β) :
    Files P β :=
  Function.update files p (some data)

/-- Data written to the beginning of the contents. -/
def overwrite (data old : List β) : List β := data ++ old.drop data.length

/-- The contents with another size, filled up where they get longer. -/
def truncate (fill : β) (size : ℕ) (old : List β) : List β :=
  old.take size ++ List.replicate (size - old.length) fill

theorem truncate_overwrite (fill : β) (data old : List β) :
    truncate fill data.length (overwrite data old) = data := by
  have hlen : data.length ≤ (overwrite data old).length := by
    rw [overwrite, List.length_append]
    exact Nat.le_add_right _ _
  rw [truncate, Nat.sub_eq_zero_of_le hlen, overwrite, List.take_left]
  exact List.append_nil data

section Store

variable [DecidableEq P]

theorem create_self (files : Files P β) (p : P) :
    create files p p = some (content files p) :=
  Function.update_self ..

theorem commit_self (files : Files P β) (p : P) (data : List β) :
    commit files p data p = some data :=
  Function.update_self ..

theorem create_of_ne (files : Files P β) {p q : P} (h : q ≠ p) :
    create files p q = files q :=
  Function.update_of_ne h ..

theorem commit_of_ne (files : Files P β) {p q : P} (h : q ≠ p) (data : List β) :
    commit files p data q = files q :=
  Function.update_of_ne h ..

/-- A file that was just made has the contents it had before. -/
theorem content_create (files : Files P β) (p : P) :
    content (create files p) p = content files p := by
  rw [content, create_self, Option.getD_some]

end Store

end FileStore
