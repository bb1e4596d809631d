/-
**No way runs in a circle.**

The links of dropped nodes are never cleared, so a way may begin behind dropped nodes and come to a
list that was rearranged since.  Still every way ends.

The reason lies in the nodes that are on no list.  A change gives them no links, so a way leads from
them where it led before, until it comes to a node that is on a list now; and from there it follows
this list to the end.

Main definitions:

* `SpanChain.Pool.Open` — every way ends.

Main results:

* `SpanChain.Pool.Open.of_follow` — all ways end if nodes on no list lead where they led before;
* `SpanChain.Pool.Open.of_change`, `SpanChain.Pool.Open.of_changes` — **changes leave all ways
  open**.
-/

import SpanChain.Proofs.Rows.Frame
import SpanChain.Proofs.Rows.Way

set_option relaxedAutoImplicit false
set_option autoImplicit false

namespace SpanChain

variable {α : Type} {n m : Nat}

namespace Pool

variable {p q : Pool α n m}

/-- Every way ends. -/
def Open (p : Pool α n m) : Prop := ∀ d x, ∃ w, p.Way d (some x) w

theorem Open.exists_way (h : p.Open) (d : Direction) (a : Option (Fin n)) : ∃ w, p.Way d a w := by
  cases a with
  | none => exact ⟨[], rfl⟩
  | some x => exact h d x

/-- Where there are no links every way ends at once. -/
theorem open_of_unlinked (hlinks : ∀ x, p.next x = none ∧ p.prev x = none) : p.Open := by
  intro d x
  cases d with
  | forward => exact ⟨[x], rfl, (hlinks x).1⟩
  | backward => exact ⟨[x], rfl, (hlinks x).2⟩

/-- All ways end in a pool whose nodes on no list lead where they led in one without circles, or
nowhere. -/
theorem Open.of_follow (h : p.Open) (hq : q.WellFormed)
    (hfollow : ∀ d y, Rows.Unlisted q.members y →
      q.follow d y = p.follow d y ∨ q.follow d y = none) : q.Open := by
  -- along the old way, up to the first node that is on a list now
  have hways : ∀ d w a, p.Way d a w → ∃ w', q.Way d a w' := by
    intro d w
    induction w with
    | nil => exact fun a ha => ⟨[], ha⟩
    | cons x w ih =>
        rintro a ⟨rfl, hway⟩
        by_cases hx : Rows.Unlisted q.members x
        · rcases hfollow d x hx with hsame | hnone
          · obtain ⟨w', hw'⟩ := ih _ hway
            exact ⟨x :: w', rfl, by rwa [hsame]⟩
          · exact ⟨[x], rfl, hnone⟩
        · simp only [Rows.Unlisted, not_forall, not_not] at hx
          obtain ⟨l, hl⟩ := hx
          exact Represents.exists_way hq hl d
  intro d x
  obtain ⟨w, hw⟩ := h d x
  exact hways d w _ hw

/-- **A change leaves all ways open.** -/
theorem Open.of_change (h : p.Open) (hp : p.WellFormed) (hc : Change p q) : q.Open := by
  refine h.of_follow (hc.wellFormed hp) fun d y hy => ?_
  rcases hc.links_of_unlisted hp hy with hsame | ⟨hnext, hprev⟩
  · cases d with
    | forward => exact .inl hsame.next
    | backward => exact .inl hsame.prev
  · cases d with
    | forward => exact .inr hnext
    | backward => exact .inr hprev

/-- Any number of changes leave all ways open. -/
theorem Open.of_changes (h : p.Open) (hp : p.WellFormed) (hc : p.Changes q) :
    q.WellFormed ∧ q.Open :=
  hc.preserves (fun _ _ hp h hc => h.of_change hp hc) hp h

end Pool

end SpanChain
