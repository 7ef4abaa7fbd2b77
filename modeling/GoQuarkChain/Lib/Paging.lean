import Mathlib

/-!
# Paging through a list with a cursor

A client reads a list a page at a time: it calls with a cursor, then with the cursor
each call returns, until a call returns an empty page. `Run call c pages` is such a
run from `c`, its empty page last; a run exists exactly when the client stops.

A `Cursor` is a call that, at a cursor standing before a list, reads a first part of
the list, returns a page that part emits and a cursor standing before the rest, and
stops before the end only with a full page. From any cursor, the client's run then
cuts the list into consecutive parts, one for each call (`Cursor.run`). When each
part's page shows a sublist of the part (`Selects`), the run's pages together show a
sublist of the whole list (`selects_flatten`).
-/

namespace Paging

variable {γ κ β ε : Type*}

/-- A run of the paging client from cursor `c`: the pages of its calls in order, up
to and including the first empty one. -/
inductive Run (call : γ → Except ε (List β × γ)) : γ → List (List β) → Prop
  | last {c c' : γ} : call c = .ok ([], c') → Run call c [[]]
  | next {c c' : γ} {page : List β} {pages : List (List β)} :
      call c = .ok (page, c') → page ≠ [] → Run call c' pages → Run call c (page :: pages)

/-- A call that pages through lists: at a cursor `c` standing before `l` (`At c l`) it
reads a first part `seg` of `l`, returns a page of at most `limit` that `seg` emits and
a cursor standing before the rest, and it leaves a rest only after a full page. -/
structure Cursor (call : γ → Except ε (List β × γ)) (At : γ → List κ → Prop)
    (Emits : List κ → List β → Prop) (limit : Nat) : Prop where
  call_at : ∀ {c l}, At c l → ∃ seg rest page c', l = seg ++ rest ∧
    call c = .ok (page, c') ∧ At c' rest ∧ Emits seg page ∧ page.length ≤ limit ∧
    (rest ≠ [] → page.length = limit)
  emits_nil : ∀ {page}, Emits [] page → page = []

variable {call : γ → Except ε (List β × γ)} {At : γ → List κ → Prop}
  {Emits : List κ → List β → Prop} {limit : Nat}

/-- From a cursor standing before `l`, the client stops, and its calls read `l` in
consecutive parts. -/
theorem Cursor.run (hC : Cursor call At Emits limit) (hlimit : 0 < limit) {c : γ}
    {l : List κ} (hat : At c l) : ∃ segs pages, Run call c pages ∧ l = segs.flatten ∧
      List.Forall₂ Emits segs pages ∧ ∀ page ∈ pages, page.length ≤ limit := by
  induction hn : l.length using Nat.strongRecOn generalizing c l with
  | _ n ih =>
    obtain ⟨seg, rest, page, c', rfl, hcall, hat', hemit, hlen, hfull⟩ := hC.call_at hat
    by_cases hpage : page = []
    · -- an empty page ends the run, which happens only at the end of the list
      subst hpage
      have hrest : rest = [] := by
        by_contra hne
        have := hfull hne
        simp only [List.length_nil] at this
        omega
      subst hrest
      exact ⟨[seg], [[]], .last hcall, by simp, .cons hemit .nil, by simp⟩
    · -- a page with something on it was read from a nonempty part, so the rest is shorter
      have hseg : seg ≠ [] := fun h => hpage (hC.emits_nil (h ▸ hemit))
      have hshort : rest.length < n := by
        have := List.length_pos_iff.mpr hseg
        rw [← hn, List.length_append]
        omega
      obtain ⟨segs, pages, hrun, hflat, hall, hle⟩ := ih rest.length hshort hat' rfl
      refine ⟨seg :: segs, page :: pages, .next hcall hpage hrun, by simp [hflat],
        .cons hemit hall, ?_⟩
      rintro p (_ | ⟨_, hp⟩)
      · exact hlen
      · exact hle p hp

/-- `page` shows, through `R`, a sublist of `seg` that holds every element `Q` picks
from `seg`. -/
def Selects (R : κ → β → Prop) (Q : List κ → κ → Prop) (seg : List κ) (page : List β) :
    Prop :=
  ∃ ks, ks.Sublist seg ∧ List.Forall₂ R ks page ∧ ∀ k ∈ seg, Q seg k → k ∈ ks

variable {R : κ → β → Prop} {Q : List κ → κ → Prop}

theorem Selects.nil {page : List β} (h : Selects R Q [] page) : page = [] := by
  obtain ⟨ks, hsub, hR, -⟩ := h
  rw [List.sublist_nil.mp hsub] at hR
  exact List.forall₂_nil_left_iff.mp hR

/-- Pages that each select from their part select from the whole list, when what `Q`
picks from a list it also picks from every part of it. -/
theorem selects_flatten (hQ : ∀ ⦃l seg k⦄, seg ⊆ l → Q l k → Q seg k)
    {segs : List (List κ)} {pages : List (List β)}
    (h : List.Forall₂ (Selects R Q) segs pages) : Selects R Q segs.flatten pages.flatten := by
  induction h with
  | nil => exact ⟨[], List.Sublist.slnil, .nil, by simp⟩
  | @cons seg page segs pages hsel _ ih =>
    obtain ⟨ks, hsub, hR, hall⟩ := hsel
    obtain ⟨ks', hsub', hR', hall'⟩ := ih
    refine ⟨ks ++ ks', hsub.append hsub', List.rel_append hR hR', ?_⟩
    intro k hk hq
    rcases List.mem_append.mp hk with hk | hk
    · exact List.mem_append_left _ (hall k hk (hQ (List.subset_append_left _ _) hq))
    · exact List.mem_append_right _ (hall' k hk (hQ (List.subset_append_right _ _) hq))

end Paging
