import GoQuarkChain.Core.XShardTxCursor
import GoQuarkChain.Lib.SortedList

/-!
# The order in which a shard receives its deposits

The cursor's comment fixes the meaning of a cursor info `(x, y, z)`: `(x, 0, 1)`
is the coinbase of root block `x`, `(x, y, z)` with `y > 0` is deposit `z` of
the `y`-th minor block root block `x` confirms, and `(x, 0, 0)` is an end. Read
lexicographically, these infos order the deposits. `depositSeq` lists the
deposits of a run of root blocks in that order, each at its position: for each
root block its coinbase, then the cross-shard list of every neighbour block it
confirms that was mined above the shard's genesis root height. This is the
sequence one uninterrupted cursor hands out.

`RootChain` is a root chain as the shard stores it, from its genesis root height
up, with the cross-shard lists of the blocks it confirms stored as `AddRootBlock`
requires. Over it, `getRootBlockHeaderByHeight` finds the chain's blocks, and
`scanMinorBlocks` finds the next deposit of `depositSeq`.
-/

namespace Core

open State

namespace XShardTxCursorInfo

/-- A cursor info as a triple, compared lexicographically. -/
def key (p : XShardTxCursorInfo) : Lex (ℕ × Lex (ℕ × ℕ)) :=
  toLex (p.rootBlockHeight, toLex (p.minorBlockIndex, p.xShardDepositIndex))

theorem key_injective : Function.Injective key := by
  rintro ⟨a, b, c⟩ ⟨a', b', c'⟩ h
  simp [key] at h
  obtain ⟨rfl, rfl, rfl⟩ := h
  rfl

instance : LinearOrder XShardTxCursorInfo := LinearOrder.lift' key key_injective

theorem lt_iff {p q : XShardTxCursorInfo} : p < q ↔ p.rootBlockHeight < q.rootBlockHeight ∨
    p.rootBlockHeight = q.rootBlockHeight ∧ (p.minorBlockIndex < q.minorBlockIndex ∨
      p.minorBlockIndex = q.minorBlockIndex ∧ p.xShardDepositIndex < q.xShardDepositIndex) := by
  show key p < key q ↔ _
  simp [key, Prod.Lex.toLex_lt_toLex]

theorem lt_of_height_lt {p q : XShardTxCursorInfo} (h : p.rootBlockHeight < q.rootBlockHeight) :
    p < q :=
  lt_iff.mpr (.inl h)

theorem lt_of_index_lt {p q : XShardTxCursorInfo} (h : p.rootBlockHeight = q.rootBlockHeight)
    (hi : p.minorBlockIndex < q.minorBlockIndex) : p < q :=
  lt_iff.mpr (.inr ⟨h, .inl hi⟩)

theorem lt_of_deposit_lt {p q : XShardTxCursorInfo} (h : p.rootBlockHeight = q.rootBlockHeight)
    (hi : p.minorBlockIndex = q.minorBlockIndex) (hz : p.xShardDepositIndex < q.xShardDepositIndex) :
    p < q :=
  lt_iff.mpr (.inr ⟨h, .inr ⟨hi, hz⟩⟩)

theorem le_of_deposit_le {p q : XShardTxCursorInfo} (h : p.rootBlockHeight = q.rootBlockHeight)
    (hi : p.minorBlockIndex = q.minorBlockIndex) (hz : p.xShardDepositIndex ≤ q.xShardDepositIndex) :
    p ≤ q := by
  rcases hz.lt_or_eq with hlt | heq
  · exact (lt_iff.mpr (.inr ⟨h, .inr ⟨hi, hlt⟩⟩)).le
  · obtain ⟨a, b, c⟩ := p
    obtain ⟨a', b', c'⟩ := q
    simp only at h hi heq
    subst h hi heq
    exact le_refl _

end XShardTxCursorInfo

/-- The deposits of a list from index `z` on, at their cursor infos in root
block `x` and minor block `i`. -/
def positioned (x i : Nat) : Nat → List CrossShardTransactionDeposit →
    List (XShardTxCursorInfo × CrossShardTransactionDeposit)
  | _, [] => []
  | z, d :: ds => (⟨x, i, z⟩, d) :: positioned x i (z + 1) ds

theorem positioned_drop {x i z : Nat} {l : List CrossShardTransactionDeposit}
    {d : CrossShardTransactionDeposit} (hd : l[z]? = some d) :
    positioned x i z (l.drop z) = (⟨x, i, z⟩, d) :: positioned x i (z + 1) (l.drop (z + 1)) := by
  obtain ⟨hz, rfl⟩ := List.getElem?_eq_some_iff.mp hd
  rw [List.drop_eq_getElem_cons hz, positioned]

theorem mem_positioned {x i z : Nat} {l : List CrossShardTransactionDeposit}
    {e : XShardTxCursorInfo × CrossShardTransactionDeposit} (he : e ∈ positioned x i z l) :
    e.1.rootBlockHeight = x ∧ e.1.minorBlockIndex = i ∧ z ≤ e.1.xShardDepositIndex ∧
      e.1.xShardDepositIndex < z + l.length := by
  induction l generalizing z with
  | nil => simp [positioned] at he
  | cons d ds ih =>
    rcases List.mem_cons.mp he with rfl | he
    · simp
    · obtain ⟨h1, h2, h3, h4⟩ := ih he
      exact ⟨h1, h2, by omega, by simp; omega⟩

theorem positioned_append (x i z : Nat) (l l' : List CrossShardTransactionDeposit) :
    positioned x i z (l ++ l') = positioned x i z l ++ positioned x i (z + l.length) l' := by
  induction l generalizing z with
  | nil => rfl
  | cons d ds ih =>
    simp only [List.cons_append, positioned, ih, List.length_cons]
    rw [Nat.add_right_comm, Nat.add_assoc]

theorem mem_positioned_of_getElem? {x i z k : Nat} {l : List CrossShardTransactionDeposit}
    {d : CrossShardTransactionDeposit} (hd : l[k]? = some d) :
    (⟨x, i, z + k⟩, d) ∈ positioned x i z l := by
  induction l generalizing z k with
  | nil => simp at hd
  | cons d' ds ih =>
    cases k with
    | zero => simp at hd; simp [positioned, hd]
    | succ k =>
      have := ih (z := z + 1) (by simpa using hd)
      rw [show z + 1 + k = z + (k + 1) by omega] at this
      exact List.mem_cons_of_mem _ this

namespace MinorBlockChain
variable (m : MinorBlockChain)

/-- Whether the shard receives the cross-shard list of `h`, a minor block
confirmed by the root block at height `x`: another shard's block, a neighbour
at that height, mined on a root block above the shard's genesis root height. -/
def receivesFrom (x : Nat) (h : MinorBlockHeader) : Bool :=
  h.branch != m.branch && m.isNeighbor h.branch x &&
    (m.getRootBlockByHash h.prevRootBlockHash).any fun pr => m.genesisRootHeight < pr.header.number

/-- The deposits of the minor blocks `hs` of the root block at height `x`, the
first of them being its `i`-th (from 1). -/
def minorDeposits (x : Nat) : Nat → List MinorBlockHeader →
    List (XShardTxCursorInfo × CrossShardTransactionDeposit)
  | _, [] => []
  | i, h :: hs =>
    (if m.receivesFrom x h then positioned x i 0 ((m.xShardLists h.hash).getD []) else []) ++
      minorDeposits x (i + 1) hs

/-- What `AddRootBlock` checks of a neighbour's block confirmed at height `x`:
its previous root block is stored, and its cross-shard list is stored exactly
when that root block is above the shard's genesis root height. -/
def ListsStored (x : Nat) (h : MinorBlockHeader) : Prop :=
  h.branch ≠ m.branch → m.isNeighbor h.branch x = true →
    ∃ pr, m.getRootBlockByHash h.prevRootBlockHash = some pr ∧
      ((m.xShardLists h.hash).isSome ↔ m.genesisRootHeight < pr.header.number)

/-- What `scanMinorBlocks` must find from the `i`-th (from 0) minor block of
`r` on: nothing if no deposit is left there, else the first one, the index of
its minor block and that block's list. -/
def Scanned (r : RootBlock) (i : Nat) :
    Option (CrossShardTransactionDeposit × Nat × Option (List CrossShardTransactionDeposit)) →
      Prop
  | none => m.minorDeposits r.header.number (i + 1) (r.minorBlockHeaders.drop i) = []
  | some (tx, i', xl) => ∃ k h ds, i' = k + 1 ∧ i ≤ k ∧ r.minorBlockHeaders[k]? = some h ∧
      m.receivesFrom r.header.number h ∧ m.xShardLists h.hash = some (tx :: ds) ∧
      xl = some (tx :: ds) ∧
      m.minorDeposits r.header.number (i + 1) (r.minorBlockHeaders.drop i) =
        (⟨r.header.number, i', 0⟩, tx) ::
          (positioned r.header.number i' 1 ds ++
            m.minorDeposits r.header.number (i' + 1) (r.minorBlockHeaders.drop i'))

variable {m}

theorem Scanned.of_skip {r : RootBlock} {i : Nat} {h : MinorBlockHeader} {res}
    (hh : r.minorBlockHeaders[i]? = some h)
    (hskip : (if m.receivesFrom r.header.number h then
      positioned r.header.number (i + 1) 0 ((m.xShardLists h.hash).getD []) else []) = [])
    (hres : m.Scanned r (i + 1) res) : m.Scanned r i res := by
  have hdrop : r.minorBlockHeaders.drop i = h :: r.minorBlockHeaders.drop (i + 1) := by
    obtain ⟨hi, rfl⟩ := List.getElem?_eq_some_iff.mp hh
    exact List.drop_eq_getElem_cons hi
  have hstep : m.minorDeposits r.header.number (i + 1) (r.minorBlockHeaders.drop i) =
      m.minorDeposits r.header.number (i + 1 + 1) (r.minorBlockHeaders.drop (i + 1)) := by
    rw [hdrop, minorDeposits, hskip, List.nil_append]
  match res, hres with
  | none, hres => exact hstep.trans hres
  | some (tx, i', xl), ⟨k, h', ds, hi', hk, hh', hrecv, hl, hxl, hds⟩ =>
    exact ⟨k, h', ds, hi', by omega, hh', hrecv, hl, hxl, hstep.trans hds⟩

theorem scanMinorBlocks_spec (r : RootBlock)
    (hw : ∀ h ∈ r.minorBlockHeaders, m.ListsStored r.header.number h) (t : List MinorBlockHeader) :
    ∀ i, r.minorBlockHeaders.drop i = t →
      ∃ res, m.scanMinorBlocks r i t = .ok res ∧ m.Scanned r i res := by
  induction t with
  | nil =>
    intro i ht
    exact ⟨none, rfl, by simp [Scanned, ht, minorDeposits]⟩
  | cons h t ih =>
    intro i ht
    have hh : r.minorBlockHeaders[i]? = some h := by
      rw [← List.head?_drop, ht]; rfl
    have ht' : r.minorBlockHeaders.drop (i + 1) = t := by
      rw [← List.drop_drop, ht]; rfl
    obtain ⟨res, hscan, hres⟩ := ih (i + 1) ht'
    have hmem : h ∈ r.minorBlockHeaders := List.mem_of_getElem? hh
    by_cases hskip : h.branch = m.branch ∨ m.isNeighbor h.branch r.header.number = false
    · -- not a neighbour's block
      refine ⟨res, ?_, Scanned.of_skip hh ?_ hres⟩
      · rcases hskip with hs | hs <;> simp [scanMinorBlocks, hs, hscan]
      · rcases hskip with hs | hs <;> simp [receivesFrom, hs]
    obtain ⟨hb, hn⟩ : h.branch ≠ m.branch ∧ m.isNeighbor h.branch r.header.number = true := by
      simpa using hskip
    obtain ⟨pr, hpr, hlist⟩ := hw h hmem hb hn
    by_cases hg : pr.header.number ≤ m.genesisRootHeight
    · -- sent before the shard existed: no list, skipped
      have hnone : m.xShardLists h.hash = none :=
        Option.not_isSome_iff_eq_none.mp fun hs => absurd (hlist.mp hs) (Nat.not_lt.mpr hg)
      refine ⟨res, ?_, Scanned.of_skip hh ?_ hres⟩
      · simp [scanMinorBlocks, hb, hn, hpr, deref, hg, hnone, hscan]
      · simp [receivesFrom, hpr, Nat.not_lt.mpr hg]
    obtain ⟨l, hl⟩ : ∃ l, m.xShardLists h.hash = some l :=
      Option.isSome_iff_exists.mp (hlist.mpr (Nat.lt_of_not_le hg))
    have hrecv : m.receivesFrom r.header.number h = true := by
      simp [receivesFrom, hb, hn, hpr, Nat.lt_of_not_le hg]
    cases l with
    | nil =>
      refine ⟨res, ?_, Scanned.of_skip hh ?_ hres⟩
      · simp [scanMinorBlocks, hb, hn, hpr, deref, hg, hl, getCurrentTx_minor, hscan]
      · simp [hrecv, hl, positioned]
    | cons d ds =>
      refine ⟨some (d, i + 1, some (d :: ds)), ?_, i, h, ds, rfl, le_refl i, hh, hrecv, hl, rfl, ?_⟩
      · simp [scanMinorBlocks, hb, hn, hpr, deref, hg, hl, getCurrentTx_minor]
      · rw [ht, ht']
        simp [minorDeposits, hrecv, hl, positioned]


variable (m)

theorem mem_minorDeposits {x i : Nat} {hs : List MinorBlockHeader}
    {e : XShardTxCursorInfo × CrossShardTransactionDeposit} (he : e ∈ m.minorDeposits x i hs) :
    e.1.rootBlockHeight = x ∧ i ≤ e.1.minorBlockIndex ∧ e.1.minorBlockIndex < i + hs.length := by
  induction hs generalizing i with
  | nil => simp [minorDeposits] at he
  | cons h hs ih =>
    rw [minorDeposits] at he
    rcases List.mem_append.mp he with he | he
    · split at he
      · obtain ⟨h1, h2, -, -⟩ := mem_positioned he
        exact ⟨h1, by omega, by simp; omega⟩
      · simp at he
    · obtain ⟨h1, h2, h3⟩ := ih he
      exact ⟨h1, by omega, by simp; omega⟩

theorem minorDeposits_append (x i : Nat) (hs hs' : List MinorBlockHeader) :
    m.minorDeposits x i (hs ++ hs') = m.minorDeposits x i hs ++ m.minorDeposits x (i + hs.length) hs' := by
  induction hs generalizing i with
  | nil => simp [minorDeposits]
  | cons h hs ih =>
    simp only [List.cons_append, minorDeposits, ih, List.append_assoc, List.length_cons]
    rw [Nat.add_right_comm, Nat.add_assoc]

/-- What a root block hands the shard: its coinbase, then its minor blocks'
deposits. -/
def rootDeposits (r : RootBlock) : List (XShardTxCursorInfo × CrossShardTransactionDeposit) :=
  (⟨r.header.number, 0, 1⟩, m.coinbaseDeposit r) ::
    m.minorDeposits r.header.number 1 r.minorBlockHeaders

/-- The deposits of the root blocks `rs`, in order: what one uninterrupted
cursor hands out. -/
def depositSeq (rs : List RootBlock) : List (XShardTxCursorInfo × CrossShardTransactionDeposit) :=
  rs.flatMap m.rootDeposits

theorem mem_rootDeposits {r : RootBlock} {e : XShardTxCursorInfo × CrossShardTransactionDeposit}
    (he : e ∈ m.rootDeposits r) :
    e.1.rootBlockHeight = r.header.number ∧ (⟨r.header.number, 0, 0⟩ : XShardTxCursorInfo) < e.1 := by
  rcases List.mem_cons.mp he with rfl | he
  · exact ⟨rfl, XShardTxCursorInfo.lt_iff.mpr (.inr ⟨rfl, .inr ⟨rfl, Nat.zero_lt_one⟩⟩)⟩
  · obtain ⟨h1, h2, -⟩ := m.mem_minorDeposits he
    exact ⟨h1, XShardTxCursorInfo.lt_of_index_lt h1.symm (by simp only; omega)⟩

theorem mem_depositSeq {rs : List RootBlock} {e : XShardTxCursorInfo × CrossShardTransactionDeposit}
    (he : e ∈ m.depositSeq rs) : ∃ r ∈ rs, e.1.rootBlockHeight = r.header.number ∧
      (⟨r.header.number, 0, 0⟩ : XShardTxCursorInfo) < e.1 := by
  obtain ⟨r, hr, he⟩ := List.mem_flatMap.mp he
  exact ⟨r, hr, m.mem_rootDeposits he⟩

end MinorBlockChain
/-- A root chain as the shard stores it: root blocks from the genesis root
height up, each stored under its hash and the parent of the next, with the
lists of the blocks they confirm stored as `AddRootBlock` requires. -/
structure RootChain (m : MinorBlockChain) where
  blocks : List RootBlock
  number_eq : ∀ k r, blocks[k]? = some r → r.header.number = m.genesisRootHeight + k
  stored : ∀ r ∈ blocks, m.getRootBlockByHash r.header.hash = some r
  parent_eq : ∀ k r r', blocks[k]? = some r → blocks[k + 1]? = some r' →
    r'.header.parentHash = r.header.hash
  listsStored : ∀ r ∈ blocks, ∀ h ∈ r.minorBlockHeaders, m.ListsStored r.header.number h

namespace RootChain

variable {m : MinorBlockChain} (c : RootChain m)

theorem getRootBlockHeaderByHash_eq {k : Nat} {r : RootBlock} (hr : c.blocks[k]? = some r) :
    m.getRootBlockHeaderByHash r.header.hash = some r.header := by
  have hs := c.stored r (List.mem_of_getElem? hr)
  simp only [MinorBlockChain.getRootBlockByHash] at hs
  simp [MinorBlockChain.getRootBlockHeaderByHash, hs]

theorem walkRootHeadersTo_eq (d : Nat) :
    ∀ k r, c.blocks[k]? = some r → d ≤ k → ∃ r', c.blocks[k - d]? = some r' ∧
      m.walkRootHeadersTo (m.genesisRootHeight + (k - d)) d r.header = .ok r'.header := by
  induction d with
  | zero => intro k r hr _; exact ⟨r, hr, rfl⟩
  | succ d ih =>
    intro k r hr hd
    have hlen := (List.getElem?_eq_some_iff.mp hr).1
    obtain ⟨p, hp⟩ : ∃ p, c.blocks[k - 1]? = some p :=
      ⟨c.blocks[k - 1], List.getElem?_eq_getElem (by omega)⟩
    have hpar : r.header.parentHash = p.header.hash :=
      c.parent_eq (k - 1) p r hp (by rw [show k - 1 + 1 = k by omega]; exact hr)
    obtain ⟨r', hr', hwalk⟩ := ih (k - 1) p hp (by omega)
    refine ⟨r', by rw [show k - (d + 1) = k - 1 - d by omega]; exact hr', ?_⟩
    have hne : m.genesisRootHeight + (k - (d + 1)) ≠ r.header.number := by
      rw [c.number_eq k r hr]; omega
    rw [MinorBlockChain.walkRootHeadersTo, if_neg hne, hpar, c.getRootBlockHeaderByHash_eq hp]
    rw [show k - (d + 1) = k - 1 - d by omega]
    exact hwalk

theorem getRootBlockHeaderByHeight_of_le {j k : Nat} {top r : RootBlock}
    (htop : c.blocks[j]? = some top) (hr : c.blocks[k]? = some r) (hk : k ≤ j) :
    m.getRootBlockHeaderByHeight top.header.hash (m.genesisRootHeight + k) = .ok (some r.header) := by
  obtain ⟨r', hr', hwalk⟩ := c.walkRootHeadersTo_eq (j - k) j top htop (Nat.sub_le j k)
  have hjk : j - (j - k) = k := by omega
  rw [hjk, hr] at hr'
  rw [hjk] at hwalk
  cases hr'
  have hnum := c.number_eq j top htop
  simp only [MinorBlockChain.getRootBlockHeaderByHeight, c.getRootBlockHeaderByHash_eq htop]
  rw [if_neg (by omega), hnum,
    show m.genesisRootHeight + j - (m.genesisRootHeight + k) = j - k by omega, hwalk]
  rfl

theorem getRootBlockHeaderByHeight_of_lt {j : Nat} {top : RootBlock}
    (htop : c.blocks[j]? = some top) {height : Nat} (h : top.header.number < height) :
    m.getRootBlockHeaderByHeight top.header.hash height = .ok none := by
  simp [MinorBlockChain.getRootBlockHeaderByHeight, c.getRootBlockHeaderByHash_eq htop, h]

theorem number_lt_of_mem_take {k : Nat} {r : RootBlock} (hr : r ∈ c.blocks.take k) :
    r.header.number < m.genesisRootHeight + k := by
  obtain ⟨i, hi⟩ := List.mem_iff_getElem?.mp hr
  rw [List.getElem?_take] at hi
  split at hi
  · rw [c.number_eq i r hi]; omega
  · simp at hi

theorem le_number_of_mem_drop {k : Nat} {r : RootBlock} {l : List RootBlock}
    (hl : l <+: c.blocks) (hr : r ∈ l.drop k) : m.genesisRootHeight + k ≤ r.header.number := by
  obtain ⟨i, hi⟩ := List.mem_iff_getElem?.mp hr
  rw [List.getElem?_drop] at hi
  obtain ⟨t, ht⟩ := hl
  have hb : c.blocks[k + i]? = some r := by
    rw [← ht, List.getElem?_append_left (List.getElem?_eq_some_iff.mp hi).1, hi]
  rw [c.number_eq (k + i) r hb]
  omega

/-- The deposits of the chain's root blocks `k` to `j`. -/
def seqBetween (k j : Nat) : List (XShardTxCursorInfo × CrossShardTransactionDeposit) :=
  m.depositSeq ((c.blocks.take (j + 1)).drop k)

theorem height_lt_of_mem_take {k : Nat} {e : XShardTxCursorInfo × CrossShardTransactionDeposit}
    (he : e ∈ m.depositSeq (c.blocks.take k)) : e.1.rootBlockHeight < m.genesisRootHeight + k := by
  obtain ⟨r, hr, he1, -⟩ := m.mem_depositSeq he
  rw [he1]
  exact c.number_lt_of_mem_take hr

theorem height_ge_of_mem_seqBetween {k j : Nat}
    {e : XShardTxCursorInfo × CrossShardTransactionDeposit} (he : e ∈ c.seqBetween k j) :
    m.genesisRootHeight + k ≤ e.1.rootBlockHeight := by
  obtain ⟨r, hr, he1, -⟩ := m.mem_depositSeq he
  rw [he1]
  exact c.le_number_of_mem_drop (List.take_prefix _ _) hr

theorem depositSeq_take_eq {k j : Nat} (hk : k ≤ j + 1) :
    m.depositSeq (c.blocks.take (j + 1)) = m.depositSeq (c.blocks.take k) ++ c.seqBetween k j := by
  have htake : c.blocks.take k = (c.blocks.take (j + 1)).take k := by
    rw [List.take_take, Nat.min_eq_left hk]
  rw [seqBetween, htake, MinorBlockChain.depositSeq, MinorBlockChain.depositSeq,
    MinorBlockChain.depositSeq, ← List.flatMap_append, List.take_append_drop]

theorem seqBetween_eq_cons {k j : Nat} {r : RootBlock} (hk : k ≤ j) (hb : c.blocks[k]? = some r) :
    c.seqBetween k j = m.rootDeposits r ++ c.seqBetween (k + 1) j := by
  have hlt : k < (c.blocks.take (j + 1)).length := by
    have := (List.getElem?_eq_some_iff.mp hb).1
    simp; omega
  have hget : (c.blocks.take (j + 1))[k] = r := by
    simpa [List.getElem_take] using (List.getElem?_eq_some_iff.mp hb).2
  simp only [seqBetween, List.drop_eq_getElem_cons hlt, hget, MinorBlockChain.depositSeq,
    List.flatMap_cons]

theorem seqBetween_of_lt {k j : Nat} (h : j < k) : c.seqBetween k j = [] := by
  have : (c.blocks.take (j + 1)).length ≤ k := by simp; omega
  simp [seqBetween, List.drop_eq_nil_of_le this, MinorBlockChain.depositSeq]

theorem depositSeq_blocks_eq (j : Nat) :
    m.depositSeq c.blocks =
      m.depositSeq (c.blocks.take (j + 1)) ++ m.depositSeq (c.blocks.drop (j + 1)) := by
  rw [MinorBlockChain.depositSeq, MinorBlockChain.depositSeq, MinorBlockChain.depositSeq,
    ← List.flatMap_append, List.take_append_drop]

end RootChain

end Core
