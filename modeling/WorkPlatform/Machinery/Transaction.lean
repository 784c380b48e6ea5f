import Mathlib.Data.List.Induction

/-!
# Machinery/Transaction — what a transaction has written, over what is committed

    committed ──w₁──w₂── … ──wₙ──▸ view          COMMIT: the view is committed
                                                 ROLLBACK: the writes are forgotten

A statement looks at the view of its transaction and is refused, or becomes writes of rows.  The
writes are the transaction's own: what is committed meanwhile by others lies under them.
-/

namespace Machinery

/-- What writes do to a database, and what statements make of it: `none` is a refusal. -/
structure Engine (σ α ω : Type*) where
  write : σ → ω → σ
  exec : σ → α → Option (List ω)

namespace Engine

variable {σ α ω β : Type*} (E : Engine σ α ω)

/-- What a transaction sees. -/
def view (s : σ) (tx : List ω) : σ := tx.foldl E.write s

/-- What a transaction has written after one more statement. -/
def statement (s : σ) (tx : List ω) (a : α) : Option (List ω) :=
  (E.exec (E.view s tx) a).map (tx ++ ·)

variable {E} {s : σ} {tx tx' : List ω} {a : α}

theorem view_concat (w : ω) : E.view s (tx ++ [w]) = E.write (E.view s tx) w := by
  rw [view, List.foldl_append]
  rfl

/-- **The frame rule**: what no write of the transaction changes is as it is committed. -/
theorem view_frame {f : σ → β} (h : ∀ w ∈ tx, ∀ s, f (E.write s w) = f s) :
    f (E.view s tx) = f s := by
  induction tx using List.reverseRecOn with
  | nil => rfl
  | append_singleton tx w ih =>
    have hw : w ∈ tx ++ [w] := List.mem_append_right _ List.mem_cons_self
    rw [view_concat, h w hw]
    exact ih fun w' hw' => h w' (List.mem_append_left _ hw')

/-- Rows that the writes of the transaction only add to. -/
theorem view_added {f : σ → List β} {g : ω → List β}
    (h : ∀ w ∈ tx, ∀ s, f (E.write s w) = f s ++ g w) :
    f (E.view s tx) = f s ++ tx.flatMap g := by
  induction tx using List.reverseRecOn with
  | nil => exact (List.append_nil _).symm
  | append_singleton tx w ih =>
    have hw : w ∈ tx ++ [w] := List.mem_append_right _ List.mem_cons_self
    rw [view_concat, h w hw, ih fun w' hw' => h w' (List.mem_append_left _ hw'),
      List.append_assoc, List.flatMap_append, List.flatMap_singleton]

theorem statement_eq_some (h : E.statement s tx a = some tx') :
    ∃ ws, E.exec (E.view s tx) a = some ws ∧ tx' = tx ++ ws := by
  obtain ⟨ws, hexec, rfl⟩ := Option.map_eq_some_iff.mp h
  exact ⟨ws, hexec, rfl⟩

end Engine

end Machinery
