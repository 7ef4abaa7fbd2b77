import GoQuarkChain.Lib.SortedList
import GoQuarkChain.Lib.ExceptState

/-!
# The arena LLRB of the native qkchash

`LLRB<T>` (native/qkchash_llrb.h) is a left-leaning red-black tree whose nodes
live in a fixed arena. Each node stores the number of elements on its left, so
that `eraseByOrder(p)` removes the `p`-th smallest element. A `Node*` is a
`Node`: `null`, or a node with its fields. Of the arena only the length of the
free list is kept, which is what `size()` reads: the private `insert` takes one
slot exactly when it returns a node, and every erase that returns gives back
exactly one slot.

Crashes are explicit. A failed `CHECK` aborts, and a field read through a null
pointer is a null dereference. The private `insert` returns `nullptr` for a
value already in the tree, and the public `insert` stores that as the root
while the free list keeps its length.
-/

namespace Qkchash

inductive Crash where
  | abort
  | nullDereference
  | divideByZero
  /-- Not a behaviour of the source: the bound on the erase recursion, which
  `eraseByOrder` sets to the number of nodes. -/
  | outOfFuel
deriving DecidableEq, Repr

/-- A `Node*` of the arena: `null`, or a node with its value, children, colour
and the number of elements in its left subtree. -/
inductive Node (α : Type) where
  | null
  | node (value : α) (left right : Node α) (color : Bool) (size : Nat)
deriving DecidableEq, Repr

def red : Bool := true

def black : Bool := false

namespace Node

variable {α : Type}

/-- `isRed` of a child index: a null child is black. -/
def isRed : Node α → Bool
  | null => false
  | node _ _ _ c _ => c

/-- The left child. Every read of it below is of a node the source knows to
be non-null, so the null case is never taken. -/
def left : Node α → Node α
  | null => null
  | node _ l _ _ _ => l

def right : Node α → Node α
  | null => null
  | node _ _ r _ _ => r

/-- `idx == NULL_IDX`. -/
def isNull : Node α → Bool
  | null => true
  | node .. => false

/-- `h->right = r` on a node. -/
def setRight : Node α → Node α → Node α
  | null, _ => null
  | node v l _ c s, r => node v l r c s

def setColor (c : Bool) : Node α → Node α
  | null => null
  | node v l r _ s => node v l r c s

/-- The values of the subtree in order. -/
def keys : Node α → List α
  | null => []
  | node v l r _ _ => l.keys ++ v :: r.keys

/-- Every node's `size` field counts the elements of its left subtree. -/
def SizeOk : Node α → Prop
  | null => True
  | node _ l r _ s => s = l.keys.length ∧ l.SizeOk ∧ r.SizeOk

/-- A subtree that is a search tree with correct rank fields. -/
def Valid [LinearOrder α] (h : Node α) : Prop := h.keys.Pairwise (· < ·) ∧ h.SizeOk

@[simp] theorem keys_null : (null : Node α).keys = [] := rfl

@[simp] theorem keys_node (v : α) (l r : Node α) (c : Bool) (s : Nat) :
    (node v l r c s).keys = l.keys ++ v :: r.keys := rfl

@[simp] theorem sizeOk_null : (null : Node α).SizeOk := trivial

@[simp] theorem sizeOk_node (v : α) (l r : Node α) (c : Bool) (s : Nat) :
    (node v l r c s).SizeOk ↔ s = l.keys.length ∧ l.SizeOk ∧ r.SizeOk := Iff.rfl

/-! ## The tree operations -/

def rotateLeft : Node α → Except Crash (Node α)
  | node v l (node xv xl xr _ xs) c s => .ok (node xv (node v l xl red s) xr c (xs + (s + 1)))
  | _ => .error .nullDereference

def rotateRight : Node α → Except Crash (Node α)
  | node v (node xv xl xr _ xs) r c s => .ok (node xv xl (node v xr r red (s - (xs + 1))) c xs)
  | _ => .error .nullDereference

def flipColor : Node α → Except Crash (Node α)
  | node v (node lv ll lr lc ls) (node rv rl rr rc rs) c s =>
    .ok (node v (node lv ll lr (!lc) ls) (node rv rl rr (!rc) rs) (!c) s)
  | _ => .error .nullDereference

/-- The three local fixes shared by the private `insert` and `fixUp`: a left
rotation when `rotate`, a right rotation of two reds in a row on the left, and
a colour flip of two red children. Children are read only behind `isRed`, so
never through null. -/
def rebalance (rotate : Bool) (h : Node α) : Except Crash (Node α) :=
  (if rotate then rotateLeft h else pure h) >>= fun h =>
  (if h.left.isRed && h.left.left.isRed then rotateRight h else pure h) >>= fun h =>
  if h.left.isRed && h.right.isRed then flipColor h else pure h

def fixUp (h : Node α) : Except Crash (Node α) := rebalance h.right.isRed h

/-- The rebalancing at the end of the private `insert`. -/
def insertFixUp (h : Node α) : Except Crash (Node α) :=
  rebalance (h.right.isRed && !h.left.isRed) h

section Insert

variable [LinearOrder α]

/-- The private `insert`. `none` is the `nullptr` it returns when `value` is
already in the subtree; `freeList` is the free-list length `newNode` checks. -/
def insert (freeList : Nat) (value : α) : Node α → Except Crash (Option (Node α))
  | null => if freeList = 0 then .error .abort else .ok (some (node value null null red 0))
  | node v l r c s =>
    if value = v then .ok none
    else if value < v then do
      let some left ← insert freeList value l | pure none
      some <$> insertFixUp (node v left r c (s + 1))
    else do
      let some right ← insert freeList value r | pure none
      some <$> insertFixUp (node v l right c s)

end Insert

/-- `!isRed(c) && !isRed(getNode(c)->left)` for a child `c`. A null child is
not red, so its `left` is then read through null. -/
def bothBlack : Node α → Except Crash Bool
  | null => .error .nullDereference
  | node _ l _ c _ => .ok (!c && !l.isRed)

/-- After `flipColor` both children exist, so the reads of `h->right` below are
of a node. -/
def moveRedLeft (h : Node α) : Except Crash (Node α) := do
  let h ← flipColor h
  if h.right.left.isRed then
    let right ← rotateRight h.right
    flipColor (← rotateLeft (h.setRight right))
  else pure h

def moveRedRight (h : Node α) : Except Crash (Node α) := do
  let h ← flipColor h
  if h.left.left.isRed then flipColor (← rotateRight h) else pure h

/-- `getMinNode(h)->value`. -/
def getMinNode : Node α → Except Crash α
  | null => .error .nullDereference
  | node v null _ _ _ => .ok v
  | node _ l _ _ _ => getMinNode l

/-- `h->…` on a pointer: null crashes, a node passes its fields on. -/
def deref {β : Type} (h : Node α) (k : α → Node α → Node α → Bool → Nat → Except Crash β) :
    Except Crash β :=
  match h with
  | null => .error .nullDereference
  | node v l r c s => k v l r c s

/-- `removeMin(h)`, with `fuel` bounding the recursion. -/
def removeMin : Nat → Node α → Except Crash (Node α)
  | _, null => .error .nullDereference
  | _, node _ null _ _ _ => .ok null
  | 0, node .. => .error .outOfFuel
  | fuel + 1, h => do
    let h ← if ← bothBlack h.left then moveRedLeft h else pure h
    h.deref fun v l r c s => do
      let left ← removeMin fuel l
      fixUp (node v left r c (s - 1))

/-- `eraseAt(h, p, value)`: the new subtree and the erased value, with `fuel`
bounding the recursion. -/
def eraseAt : Nat → Node α → Nat → Except Crash (Node α × α)
  | _, null, _ => .error .abort
  | 0, node .., _ => .error .outOfFuel
  | fuel + 1, h@(node _ _ _ _ size), p =>
    if p < size then do
      let h ← if ← bothBlack h.left then moveRedLeft h else pure h
      h.deref fun v l r c s => do
        let (left, value) ← eraseAt fuel l p
        return (← fixUp (node v left r c (s - 1)), value)
    else do
      let h ← if h.left.isRed then rotateRight h else pure h
      h.deref fun v l r c s => do
        if p = s && r.isNull then return (null, v)
        let h ← if ← bothBlack r then moveRedRight (node v l r c s) else pure (node v l r c s)
        h.deref fun v l r c s =>
          if s = p then do
            let minValue ← getMinNode r
            let right ← removeMin fuel r
            return (← fixUp (node minValue l right c s), v)
          else do
            let (right, value) ← eraseAt fuel r (p - s - 1)
            return (← fixUp (node v l right c s), value)

/-! ## Rebalancing keeps the values and the rank fields -/

/-- `h'` holds the values of `h` in the same order, and has correct rank fields
when `h` has. -/
def Reshaped (h h' : Node α) : Prop := h'.keys = h.keys ∧ (h.SizeOk → h'.SizeOk)

theorem Reshaped.refl (h : Node α) : Reshaped h h := ⟨rfl, id⟩

theorem Reshaped.trans {h₁ h₂ h₃ : Node α} (a : Reshaped h₁ h₂) (b : Reshaped h₂ h₃) :
    Reshaped h₁ h₃ :=
  ⟨b.1.trans a.1, fun hs => b.2 (a.2 hs)⟩

theorem rotateLeft_reshaped {h h' : Node α} (e : rotateLeft h = .ok h') : Reshaped h h' := by
  rcases h with _ | ⟨v, l, _ | ⟨xv, xl, xr, xc, xs⟩, c, s⟩ <;> simp only [rotateLeft] at e <;>
    cases e
  refine ⟨by simp, ?_⟩
  rintro ⟨hs, hl, hxs, hxl, hxr⟩
  refine ⟨?_, ⟨hs, hl, hxl⟩, hxr⟩
  simp only [keys_node, List.length_append, List.length_cons]
  omega

theorem rotateRight_reshaped {h h' : Node α} (e : rotateRight h = .ok h') : Reshaped h h' := by
  rcases h with _ | ⟨v, _ | ⟨xv, xl, xr, xc, xs⟩, r, c, s⟩ <;> simp only [rotateRight] at e <;>
    cases e
  refine ⟨by simp, ?_⟩
  rintro ⟨hs, ⟨hxs, hxl, hxr⟩, hr⟩
  refine ⟨hxs, hxl, ?_, hxr, hr⟩
  simp only [keys_node, List.length_append, List.length_cons] at hs
  omega

theorem flipColor_reshaped {h h' : Node α} (e : flipColor h = .ok h') : Reshaped h h' := by
  rcases h with _ | ⟨v, _ | ⟨lv, ll, lr, lc, ls⟩, _ | ⟨rv, rl, rr, rc, rs⟩, c, s⟩ <;>
    simp only [flipColor] at e <;> cases e
  exact ⟨rfl, id⟩

/-- A step that reshapes, taken or skipped by a test, reshapes. -/
theorem reshaped_of_ite {c : Prop} [Decidable c] {f : Node α → Except Crash (Node α)}
    (hf : ∀ {h h'}, f h = .ok h' → Reshaped h h') {h h' : Node α}
    (e : (if c then f h else pure h) = .ok h') : Reshaped h h' := by
  split at e
  · exact hf e
  · cases e
    exact .refl _

theorem rebalance_reshaped {b : Bool} {h h' : Node α} (e : rebalance b h = .ok h') :
    Reshaped h h' := by
  unfold rebalance at e
  obtain ⟨h₁, e₁, e⟩ := Except.bind_eq_ok.mp e
  obtain ⟨h₂, e₂, e₃⟩ := Except.bind_eq_ok.mp e
  exact ((reshaped_of_ite rotateLeft_reshaped e₁).trans
    (reshaped_of_ite rotateRight_reshaped e₂)).trans (reshaped_of_ite flipColor_reshaped e₃)

/-! ## Rebalancing on a red child never reads through null -/

theorem rotateLeft_ok {h : Node α} (hr : h.right.isRed = true) : ∃ h', rotateLeft h = .ok h' := by
  rcases h with _ | ⟨v, l, _ | ⟨xv, xl, xr, xc, xs⟩, c, s⟩ <;> simp [right, isRed] at hr
  exact ⟨_, rfl⟩

theorem rotateRight_ok {h : Node α} (hl : h.left.isRed = true) :
    ∃ h', rotateRight h = .ok h' := by
  rcases h with _ | ⟨v, _ | ⟨xv, xl, xr, xc, xs⟩, r, c, s⟩ <;> simp [left, isRed] at hl
  exact ⟨_, rfl⟩

theorem flipColor_ok {h : Node α} (hl : h.left.isRed = true) (hr : h.right.isRed = true) :
    ∃ h', flipColor h = .ok h' := by
  rcases h with _ | ⟨v, _ | ⟨lv, ll, lr, lc, ls⟩, _ | ⟨rv, rl, rr, rc, rs⟩, c, s⟩ <;>
    simp [left, right, isRed] at hl hr
  exact ⟨_, rfl⟩

/-- `rebalance` succeeds whenever its left rotation is asked for only on a red
right child, as both `fixUp` and the private `insert` do. -/
theorem rebalance_ok {b : Bool} {h : Node α} (hb : b = true → h.right.isRed = true) :
    ∃ h', rebalance b h = .ok h' := by
  have step₁ : ∃ h₁, (if b = true then rotateLeft h else pure h) = .ok h₁ := by
    by_cases hb' : b = true
    · simpa [hb'] using rotateLeft_ok (hb hb')
    · exact ⟨h, by simp [hb']⟩
  obtain ⟨h₁, e₁⟩ := step₁
  have step₂ : ∃ h₂, (if h₁.left.isRed && h₁.left.left.isRed then rotateRight h₁ else pure h₁) =
      .ok h₂ := by
    by_cases hc : (h₁.left.isRed && h₁.left.left.isRed) = true
    · rw [if_pos hc]
      exact rotateRight_ok (Bool.and_eq_true_iff.mp hc).1
    · exact ⟨h₁, by rw [if_neg hc]; rfl⟩
  obtain ⟨h₂, e₂⟩ := step₂
  have step₃ : ∃ h₃, (if h₂.left.isRed && h₂.right.isRed then flipColor h₂ else pure h₂) =
      .ok h₃ := by
    by_cases hc : (h₂.left.isRed && h₂.right.isRed) = true
    · rw [if_pos hc]
      obtain ⟨hl, hr⟩ := Bool.and_eq_true_iff.mp hc
      exact flipColor_ok hl hr
    · exact ⟨h₂, by rw [if_neg hc]; rfl⟩
  obtain ⟨h₃, e₃⟩ := step₃
  refine ⟨h₃, ?_⟩
  unfold rebalance
  exact Except.bind_eq_ok.mpr ⟨h₁, e₁, Except.bind_eq_ok.mpr ⟨h₂, e₂, e₃⟩⟩

theorem insertFixUp_ok (h : Node α) : ∃ h', insertFixUp h = .ok h' :=
  rebalance_ok fun hb => (Bool.and_eq_true_iff.mp hb).1

/-! ## Insertion -/

section Insert

variable [LinearOrder α]

/-- A value already in a search tree is found on the search path before any
rebalancing, so the private `insert` returns `nullptr`. -/
theorem insert_of_mem (freeList : Nat) {value : α} :
    ∀ {h : Node α}, h.keys.Pairwise (· < ·) → value ∈ h.keys → h.insert freeList value = .ok none
  | null, _, hm => by simp at hm
  | node v l r c s, hs, hm => by
    have hl : l.keys.Pairwise (· < ·) := hs.sublist (List.sublist_append_left _ _)
    have hr : r.keys.Pairwise (· < ·) :=
      hs.sublist ((List.sublist_cons_self v _).trans (List.sublist_append_right _ _))
    by_cases hv : value = v
    · simp [insert, hv]
    · rcases lt_or_gt_of_ne hv with hlt | hgt
      · have ih := insert_of_mem freeList hl (List.mem_left_of_lt hs hm hlt)
        simp [insert, hv, hlt, ih]
      · have ih := insert_of_mem freeList hr (List.mem_right_of_lt hs hm hgt)
        simp [insert, hv, not_lt.mpr hgt.le, ih]

/-- A successful insertion into a valid subtree adds `value` at its place in
the order, with correct rank fields. -/
theorem insert_some {freeList : Nat} {value : α} :
    ∀ {h h' : Node α}, h.Valid → h.insert freeList value = .ok (some h') →
      h'.keys = h.keys.orderedInsert (· ≤ ·) value ∧ h'.SizeOk
  | null, h', _, e => by
    simp only [insert] at e
    split at e
    · cases e
    · cases e
      simp
  | node v l r c s, h', ⟨hs, hsz, hlo, hro⟩, e => by
    have hl : l.keys.Pairwise (· < ·) := hs.sublist (List.sublist_append_left _ _)
    have hr : r.keys.Pairwise (· < ·) :=
      hs.sublist ((List.sublist_cons_self v _).trans (List.sublist_append_right _ _))
    simp only [insert] at e
    split_ifs at e with hv hlt
    · cases e
    · obtain ⟨o, eo, e⟩ := Except.bind_eq_ok.mp e
      cases o with
      | none => cases e
      | some left =>
        obtain ⟨h₁, e₁, he⟩ := Except.map_eq_ok.mp e
        cases he
        obtain ⟨hk, hok⟩ := insert_some ⟨hl, hlo⟩ eo
        obtain ⟨hk₁, hs₁⟩ := rebalance_reshaped e₁
        refine ⟨?_, hs₁ ⟨?_, hok, hro⟩⟩
        · rw [hk₁, keys_node, keys_node, hk, List.orderedInsert_append_cons_of_le _ _ hlt.le]
        · rw [hk, List.orderedInsert_length, hsz]
    · obtain ⟨o, eo, e⟩ := Except.bind_eq_ok.mp e
      cases o with
      | none => cases e
      | some right =>
        obtain ⟨h₁, e₁, he⟩ := Except.map_eq_ok.mp e
        cases he
        have hgt : v < value := lt_of_le_of_ne (not_lt.mp hlt) (Ne.symm hv)
        obtain ⟨hk, hok⟩ := insert_some ⟨hr, hro⟩ eo
        obtain ⟨hk₁, hs₁⟩ := rebalance_reshaped e₁
        refine ⟨?_, hs₁ ⟨hsz, hlo, hok⟩⟩
        have hbelow : ∀ x ∈ l.keys, x < value := fun x hx =>
          (List.pairwise_append.mp hs).2.2 x hx v List.mem_cons_self |>.trans hgt
        rw [hk₁, keys_node, keys_node, hk,
          List.orderedInsert_append_of_forall_lt _ hbelow, List.orderedInsert_cons,
          if_neg (not_le.mpr hgt)]

/-- Inserting a value the subtree lacks, with a free slot, returns a node. -/
theorem insert_ok {freeList : Nat} {value : α} (hf : 0 < freeList) :
    ∀ {h : Node α}, value ∉ h.keys → ∃ h', h.insert freeList value = .ok (some h')
  | null, _ => ⟨node value null null red 0, by simp [insert, Nat.pos_iff_ne_zero.mp hf]⟩
  | node v l r c s, hm => by
    simp only [keys_node, List.mem_append, List.mem_cons, not_or] at hm
    obtain ⟨hml, hv, hmr⟩ := hm
    by_cases hlt : value < v
    · obtain ⟨left, el⟩ := insert_ok hf hml
      obtain ⟨h', e'⟩ := insertFixUp_ok (node v left r c (s + 1))
      exact ⟨h', by simp [insert, hv, hlt, el, e']⟩
    · obtain ⟨right, er⟩ := insert_ok hf hmr
      obtain ⟨h', e'⟩ := insertFixUp_ok (node v l right c s)
      exact ⟨h', by simp [insert, hv, hlt, er, e']⟩

end Insert

/-! ## The sanity check -/

/-- `isBST(x, min, max)`: every value lies strictly between the bounds. -/
def isBST [LinearOrder α] : Node α → Option α → Option α → Bool
  | null, _, _ => true
  | node v l r _ _, min, max =>
    (match min with | some m => decide (m < v) | none => true) &&
      (match max with | some m => decide (v < m) | none => true) &&
      isBST l min (some v) && isBST r (some v) max

/-- `isSizeConsistent(x, sum)`: the number of nodes, when every rank field
counts its left subtree. -/
def isSizeConsistent : Node α → Option Nat
  | null => some 0
  | node _ l r _ s => do
    let leftSum ← isSizeConsistent l
    if s ≠ leftSum then none
    else
      let rightSum ← isSizeConsistent r
      some (leftSum + rightSum + 1)

/-- `is23(x)`: no red right child, and no two reds in a row below the root. -/
def is23 : Bool → Node α → Bool
  | _, null => true
  | isRoot, node _ l r c _ =>
    !r.isRed && !(!isRoot && c && l.isRed) && is23 false l && is23 false r

/-- The sum `isSizeConsistent` reports is the number of values in the subtree. -/
theorem isSizeConsistent_eq_length : ∀ {h : Node α} {n : Nat},
    h.isSizeConsistent = some n → n = h.keys.length
  | null, n, e => by
    simp only [isSizeConsistent, Option.some.injEq] at e
    simp [← e]
  | node v l r c s, n, e => by
    simp only [isSizeConsistent] at e
    cases hl : l.isSizeConsistent with
    | none => simp [hl] at e
    | some leftSum =>
      cases hr : r.isSizeConsistent with
      | none => simp [hl, hr] at e
      | some rightSum =>
        simp only [hl, hr, ite_not, Option.bind_eq_bind, Option.bind_some] at e
        split_ifs at e
        cases e
        simp [isSizeConsistent_eq_length hl, isSizeConsistent_eq_length hr]
        omega

/-- A subtree that passes `isBST` between two bounds is sorted and lies
between them. -/
theorem isBST_sorted [LinearOrder α] : ∀ {h : Node α} {lo hi : Option α},
    isBST h lo hi = true →
      h.keys.Pairwise (· < ·) ∧ ∀ x ∈ h.keys, (∀ m ∈ lo, m < x) ∧ (∀ m ∈ hi, x < m)
  | null, _, _, _ => by simp
  | node v l r c s, lo, hi, e => by
    simp only [isBST, Bool.and_eq_true] at e
    obtain ⟨⟨⟨hlo, hhi⟩, el⟩, er⟩ := e
    have hlo' : ∀ m ∈ lo, m < v := by
      intro m hm
      rw [Option.mem_def] at hm
      subst hm
      simpa using hlo
    have hhi' : ∀ m ∈ hi, v < m := by
      intro m hm
      rw [Option.mem_def] at hm
      subst hm
      simpa using hhi
    obtain ⟨sl, bl⟩ := isBST_sorted el
    obtain ⟨sr, br⟩ := isBST_sorted er
    refine ⟨?_, ?_⟩
    · -- the left values lie below `v`, the right ones above
      rw [keys_node, List.pairwise_append, List.pairwise_cons]
      refine ⟨sl, ⟨fun y hy => (br y hy).1 v rfl, sr⟩, ?_⟩
      intro x hx y hy
      have hxv : x < v := (bl x hx).2 v rfl
      rcases List.mem_cons.mp hy with rfl | hy
      · exact hxv
      · exact hxv.trans ((br y hy).1 v rfl)
    · intro x hx
      rw [keys_node, List.mem_append, List.mem_cons] at hx
      rcases hx with hx | rfl | hx
      · exact ⟨(bl x hx).1, fun m hm => ((bl x hx).2 v rfl).trans (hhi' m hm)⟩
      · exact ⟨hlo', hhi'⟩
      · exact ⟨fun m hm => (hlo' m hm).trans ((br x hx).1 v rfl), (br x hx).2⟩

end Node

open Node

/-- `LLRB<T>`: the arena's number of slots, the root and the free-list length. -/
structure LLRB (α : Type) where
  capacity : Nat
  root : Node α
  freeList : Nat

namespace LLRB

variable {α : Type}

/-- The constructor: an empty tree with every slot of the arena free. -/
def new (capacity : Nat) : LLRB α := ⟨capacity, null, capacity⟩

def size (t : LLRB α) : Nat := t.capacity - t.freeList

/-- The public `insert`: the root becomes whatever the private `insert` returns. -/
def insert [LinearOrder α] (t : LLRB α) (value : α) : Except Crash (LLRB α) := do
  match ← Node.insert t.freeList value t.root with
  | none => pure { t with root := null }
  | some n => pure { t with root := n, freeList := t.freeList - 1 }

/-- `eraseByOrder(p)`: the erased value and the tree after it. -/
def eraseByOrder (t : LLRB α) (p : Nat) : Except Crash (α × LLRB α) := do
  if ¬ p < t.size then throw .abort
  let root ← t.root.deref fun v l r c s =>
    pure (if !l.isRed && !r.isRed then node v l r red s else node v l r c s)
  let (n, value) ← root.eraseAt root.keys.length p
  return (value, { t with root := n.setColor black, freeList := t.freeList + 1 })

/-- `check()`: a search tree whose rank fields hold and count `size()` nodes,
with the 2-3 shape. -/
def check [LinearOrder α] (t : LLRB α) : Bool :=
  isBST t.root none none &&
    (match isSizeConsistent t.root with | some sum => sum == t.size | none => false) &&
    is23 true t.root

section Insert

variable [LinearOrder α]

theorem insert_of_some {t : LLRB α} {value : α} {n : Node α}
    (e : t.root.insert t.freeList value = .ok (some n)) :
    t.insert value = .ok { t with root := n, freeList := t.freeList - 1 } := by
  simp [LLRB.insert, e]

/-- The public `insert` of a value the tree holds: the root is lost, the free
list keeps its length, so `size()` still counts the lost nodes. -/
theorem insert_of_mem_root {t : LLRB α} {value : α} (hs : t.root.keys.Pairwise (· < ·))
    (hm : value ∈ t.root.keys) : t.insert value = .ok { t with root := null } := by
  simp [LLRB.insert, Node.insert_of_mem t.freeList hs hm]

/-- Inserting values in increasing order, all above the tree's, with enough free
slots: every insertion takes one slot, and the tree ends up holding the old
values followed by the new ones, with correct rank fields. -/
theorem foldlM_insert :
    ∀ {ls : List α} {t : LLRB α}, t.root.Valid → (∀ x ∈ t.root.keys, ∀ y ∈ ls, x < y) →
      ls.Pairwise (· < ·) → ls.length ≤ t.freeList →
      ∃ t', ls.foldlM LLRB.insert t = .ok t' ∧ t'.root.keys = t.root.keys ++ ls ∧
        t'.root.Valid ∧ t'.capacity = t.capacity ∧ t'.freeList = t.freeList - ls.length
  | [], t, ht, _, _, _ => ⟨t, rfl, by simp, ht, rfl, by simp⟩
  | a :: rest, t, ⟨hs, hsz⟩, hlt, hls, hf => by
    rw [List.pairwise_cons] at hls
    have hbelow : ∀ x ∈ t.root.keys, x < a := fun x hx => hlt x hx a List.mem_cons_self
    have hnot : a ∉ t.root.keys := fun ha => lt_irrefl a (hbelow a ha)
    have hfree : 0 < t.freeList := by simp at hf; omega
    obtain ⟨n, en⟩ := Node.insert_ok hfree hnot
    obtain ⟨hk, hok⟩ := Node.insert_some ⟨hs, hsz⟩ en
    rw [List.orderedInsert_of_forall_lt hbelow] at hk
    have hvalid : n.Valid := by
      refine ⟨?_, hok⟩
      rw [hk, List.pairwise_append]
      exact ⟨hs, List.pairwise_singleton _ _, fun x hx y hy => by
        rw [List.mem_singleton] at hy
        exact hy ▸ hbelow x hx⟩
    have hrest : ∀ x ∈ n.keys, ∀ y ∈ rest, x < y := by
      intro x hx y hy
      rw [hk, List.mem_append, List.mem_singleton] at hx
      rcases hx with hx | rfl
      · exact hlt x hx y (List.mem_cons_of_mem a hy)
      · exact hls.1 y hy
    obtain ⟨t', e', hk', hv', hc', hf'⟩ :=
      foldlM_insert (t := { t with root := n, freeList := t.freeList - 1 }) hvalid hrest hls.2
        (by simp at hf ⊢; omega)
    refine ⟨t', ?_, ?_, hv', hc', ?_⟩
    · rw [List.foldlM_cons, insert_of_some en]
      exact e'
    · rw [hk', hk]
      simp
    · rw [hf']
      simp
      omega

/-- The public `insert` of a value that a tree passing `check()` holds: the
root is lost while the free list keeps its length, so `size()` still counts
the lost nodes and `check()` fails. -/
theorem insert_of_mem_fails_check {t : LLRB α} {value : α} (hc : t.check = true)
    (hm : value ∈ t.root.keys) :
    ∃ t', t.insert value = .ok t' ∧ t'.check = false ∧ t'.size = t.size ∧ t'.root.keys = [] := by
  simp only [check, Bool.and_eq_true] at hc
  obtain ⟨⟨hbst, hsize⟩, -⟩ := hc
  have hsorted := (isBST_sorted hbst).1
  -- `size()` was the number of nodes, at least one since `value` is among them
  have hcount : t.size = t.root.keys.length := by
    cases hs : isSizeConsistent t.root with
    | none => simp [hs] at hsize
    | some sum =>
      simp only [hs, beq_iff_eq] at hsize
      rw [← hsize]
      exact isSizeConsistent_eq_length hs
  have hpos : 0 < t.size := hcount ▸ List.length_pos_of_mem hm
  refine ⟨{ t with root := null }, insert_of_mem_root hsorted hm, ?_, rfl, rfl⟩
  simp only [check, isBST, isSizeConsistent, is23, Bool.true_and, Bool.and_true]
  simpa [size] using hpos.ne

/-- `3`, `5` and `4` inserted into four slots. -/
def threeKeyTree : LLRB Nat :=
  ⟨4, node 4 (node 3 null null black 0) (node 5 null null black 0) black 1, 1⟩

/-- The three-key tree that the inserts build passes `check()`; inserting `5` again loses
all three keys. -/
theorem insert_of_mem_fails_check_threeKeyTree :
    ((new 4 : LLRB Nat).insert 3 >>= fun t => t.insert 5 >>= fun t => t.insert 4) =
        .ok threeKeyTree ∧
      ∃ t', threeKeyTree.insert 5 = .ok t' ∧ t'.check = false ∧ t'.size = threeKeyTree.size ∧
        t'.root.keys = [] :=
  ⟨rfl, insert_of_mem_fails_check (by decide) (by decide)⟩

/-- Two slots, and `5` inserted twice. -/
theorem insert_twice_fails_check :
    ((new 2 : LLRB Nat).insert 5 >>= fun t => t.insert 5) = .ok ⟨2, null, 1⟩ ∧
      (⟨2, null, 1⟩ : LLRB Nat).check = false ∧ (⟨2, null, 1⟩ : LLRB Nat).size = 1 :=
  ⟨rfl, by decide, by decide⟩

end Insert

end LLRB

end Qkchash
