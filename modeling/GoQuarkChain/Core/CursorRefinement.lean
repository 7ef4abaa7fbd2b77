import GoQuarkChain.Core.DepositOrder

/-!
# The cursor hands out every deposit once, across blocks

A block's cursor is recovered from the info its parent saved, hands out deposits
until the block's cross-shard gas runs out, and saves its own info. `Holds`
relates a concrete cursor to the deposits of `depositSeq` it has still to hand
out: it stands at the end, before a root block, after a root block's coinbase,
or at a deposit of a minor block, with the fields the code keeps there.

One `getNextTx` hands out the first deposit still to come (`getNextTx_holds`);
`takeDeposits` hands out a prefix (`takeDeposits_holds`). Where a cursor stands
cuts the deposit order in two (`Holds.splitsAt`), and `NewXShardTxCursor` at a
saved info recovers a cursor standing there (`newXShardTxCursor_holds`). The run
over successive blocks then hands out a prefix of the order, in order and each
deposit once (`runCursors_deposits_once`).
-/

namespace Core

open State

namespace RootChain

variable {m : MinorBlockChain} (c : RootChain m)

/-- The cursor `x` of a block whose previous root block is the `j`-th of the
chain stands at a place of the deposit order, with `rest` still to hand out. -/
inductive At (j : Nat) (x : XShardTxCursor) :
    List (XShardTxCursorInfo × CrossShardTransactionDeposit) → Prop
  | eof (hr : x.rBlock = none) (hi : x.mBlockIndex = 0) (hz : x.xShardDepositIndex = 0) :
    At j x []
  | root {k : Nat} {r : RootBlock} (hk : k ≤ j) (hb : c.blocks[k]? = some r)
    (hr : x.rBlock = some r) (hi : x.mBlockIndex = 0) (hz : x.xShardDepositIndex = 0) :
    At j x (m.rootDeposits r ++ c.seqBetween (k + 1) j)
  | coinbase {k : Nat} {r : RootBlock} (hk : k ≤ j) (hb : c.blocks[k]? = some r)
    (hr : x.rBlock = some r) (hi : x.mBlockIndex = 0) (hz : x.xShardDepositIndex = 1) :
    At j x (m.minorDeposits r.header.number 1 r.minorBlockHeaders ++ c.seqBetween (k + 1) j)
  | minor {k : Nat} {r : RootBlock} {i z : Nat} {h : MinorBlockHeader}
    {l : List CrossShardTransactionDeposit} (hk : k ≤ j) (hb : c.blocks[k]? = some r)
    (hr : x.rBlock = some r) (hi : x.mBlockIndex = i + 1) (hz : x.xShardDepositIndex = z)
    (hh : r.minorBlockHeaders[i]? = some h) (hrecv : m.receivesFrom r.header.number h = true)
    (hl : m.xShardLists h.hash = some l) (hxl : x.xTxList = some l) (hzl : z < l.length) :
    At j x (positioned r.header.number (i + 1) (z + 1) (l.drop (z + 1)) ++
      m.minorDeposits r.header.number (i + 2) (r.minorBlockHeaders.drop (i + 1)) ++
        c.seqBetween (k + 1) j)

/-- `At`, for a cursor recovered under the `j`-th root block. -/
def Holds (j : Nat) (x : XShardTxCursor)
    (rest : List (XShardTxCursorInfo × CrossShardTransactionDeposit)) : Prop :=
  (∃ top, c.blocks[j]? = some top ∧ x.maxRootBlockHeader = top.header) ∧ c.At j x rest

open XShardTxCursor in
/-- The end of `getNextTx` that the coinbase and a spent minor block share: the
scan of the minor blocks left, then the next root block, then the end. -/
theorem getNextTx_of_scan_from {j k : Nat} {r : RootBlock} {x : XShardTxCursor}
    (hmax : ∃ top, c.blocks[j]? = some top ∧ x.maxRootBlockHeader = top.header)
    (hk : k ≤ j) (hb : c.blocks[k]? = some r) (hr : x.rBlock = some r)
    (hc : m.getCurrentTx r x.mBlockIndex (x.xShardDepositIndex + 1) x.xTxList = .ok none) :
    let rest := m.minorDeposits r.header.number (x.mBlockIndex + 1)
      (r.minorBlockHeaders.drop x.mBlockIndex) ++ c.seqBetween (k + 1) j
    ∃ x', getNextTx m x = .ok (rest.head?.map (·.2), x') ∧ c.Holds j x' rest.tail := by
  intro rest
  obtain ⟨top, htop, hmaxeq⟩ := hmax
  have hmem : r ∈ c.blocks := List.mem_of_getElem? hb
  obtain ⟨res, hscan, hres⟩ := MinorBlockChain.scanMinorBlocks_spec r
    (c.listsStored r hmem) _ x.mBlockIndex rfl
  cases res with
  | some v =>
    -- a minor block with deposits left
    obtain ⟨tx, i', xl⟩ := v
    obtain ⟨i, h, ds, hi', _, hh, hrecv, hl, hxl, hds⟩ := hres
    have hrest : rest.tail = positioned r.header.number (i + 1) (0 + 1) ((tx :: ds).drop (0 + 1)) ++
        m.minorDeposits r.header.number (i + 2) (r.minorBlockHeaders.drop (i + 1)) ++
          c.seqBetween (k + 1) j := by
      simp [rest, hds, hi']
    have hhead : rest.head?.map (·.2) = some tx := by simp [rest, hds]
    refine ⟨{ x with mBlockIndex := i', xShardDepositIndex := 0, xTxList := xl }, ?_,
      ⟨top, htop, hmaxeq⟩, ?_⟩
    · rw [hhead]
      exact getNextTx_of_scan m x hr hc hscan
    · rw [hrest]
      exact At.minor hk hb hr hi' rfl hh hrecv hl hxl (by simp)
  | none =>
    have hnil : m.minorDeposits r.header.number (x.mBlockIndex + 1)
        (r.minorBlockHeaders.drop x.mBlockIndex) = [] := hres
    have hrest : rest = c.seqBetween (k + 1) j := by simp [rest, hnil]
    have hlen := (List.getElem?_eq_some_iff.mp htop).1
    by_cases hkj : k < j
    · -- the next root block's coinbase
      have hlt : k + 1 < c.blocks.length := by omega
      obtain ⟨r', hb'⟩ : ∃ r', c.blocks[k + 1]? = some r' :=
        ⟨c.blocks[k + 1], List.getElem?_eq_getElem hlt⟩
      have hkj' : k + 1 ≤ j := hkj
      have hseq := c.seqBetween_eq_cons hkj' hb'
      have hheight : m.getRootBlockHeaderByHeight x.maxRootBlockHeader.hash
          (r.header.number + 1) = .ok (some r'.header) := by
        rw [hmaxeq, c.number_eq k r hb, Nat.add_assoc]
        exact c.getRootBlockHeaderByHeight_of_le htop hb' hkj'
      have hr' := c.stored r' (List.mem_of_getElem? hb')
      refine ⟨{ x with rBlock := some r', mBlockIndex := 0, xShardDepositIndex := 1 }, ?_,
        ⟨top, htop, hmaxeq⟩, ?_⟩
      · rw [getNextTx_of_next_root m x hr hc hscan hheight hr', hrest, hseq]
        rfl
      · rw [hrest, hseq]
        exact At.coinbase hkj' hb' rfl rfl rfl
    · -- past the last root block: the end
      have hkj : k = j := by omega
      subst hkj
      have htopr : r = top := by rw [hb] at htop; exact Option.some.inj htop
      subst htopr
      have hheight : m.getRootBlockHeaderByHeight x.maxRootBlockHeader.hash
          (r.header.number + 1) = .ok none := by
        rw [hmaxeq]
        exact c.getRootBlockHeaderByHeight_of_lt hb (Nat.lt_succ_self _)
      have hend : rest = [] := by rw [hrest, c.seqBetween_of_lt (Nat.lt_succ_self k)]
      refine ⟨{ x with rBlock := none, mBlockIndex := 0, xShardDepositIndex := 0 }, ?_,
        ⟨r, hb, hmaxeq⟩, ?_⟩
      · rw [hend]
        exact getNextTx_of_eof m x hr hc hscan hheight
      · rw [hend]
        exact At.eof rfl rfl rfl

open XShardTxCursor in
/-- One `getNextTx`: the first deposit still to come, or none at the end. -/
theorem getNextTx_holds {j : Nat} {x : XShardTxCursor}
    {rest : List (XShardTxCursorInfo × CrossShardTransactionDeposit)} (h : c.Holds j x rest) :
    ∃ x', getNextTx m x = .ok (rest.head?.map (·.2), x') ∧ c.Holds j x' rest.tail := by
  obtain ⟨hmax, hat⟩ := h
  cases hat with
  | eof hr hi hz => exact ⟨x, getNextTx_of_none m x hr, hmax, At.eof hr hi hz⟩
  | @root k r hk hb hr hi hz =>
    -- the root block's coinbase
    have hc : m.getCurrentTx r x.mBlockIndex (x.xShardDepositIndex + 1) x.xTxList =
        .ok (some (m.coinbaseDeposit r)) := by
      rw [hi, hz]
      exact MinorBlockChain.getCurrentTx_coinbase m r _
    refine ⟨{ x with xShardDepositIndex := 1 }, ?_, hmax, At.coinbase hk hb hr hi rfl⟩
    rw [getNextTx_of_current m x hr hc, hz]
    rfl
  | @coinbase k r hk hb hr hi hz =>
    -- deposit index 2 is past the coinbase: on to the minor blocks
    have hc : m.getCurrentTx r x.mBlockIndex (x.xShardDepositIndex + 1) x.xTxList = .ok none := by
      rw [hi, hz]
      rfl
    simpa [hi] using c.getNextTx_of_scan_from hmax hk hb hr hc
  | @minor k r i z h l hk hb hr hi hz hh hrecv hl hxl hzl =>
    cases hd : l[z + 1]? with
    | some d =>
      -- the next deposit of the same minor block
      have hc : m.getCurrentTx r x.mBlockIndex (x.xShardDepositIndex + 1) x.xTxList =
          .ok (some d) := by
        rw [hi, hz, hxl, MinorBlockChain.getCurrentTx_minor, hd]
      refine ⟨{ x with xShardDepositIndex := z + 1 }, ?_, hmax, ?_⟩
      · rw [getNextTx_of_current m x hr hc, hz, positioned_drop hd]
        rfl
      · rw [positioned_drop hd]
        exact At.minor hk hb hr hi rfl hh hrecv hl hxl
          ((List.getElem?_eq_some_iff.mp hd).1)
    | none =>
      -- the minor block is spent: on to the next ones
      have hc : m.getCurrentTx r x.mBlockIndex (x.xShardDepositIndex + 1) x.xTxList = .ok none := by
        rw [hi, hz, hxl, MinorBlockChain.getCurrentTx_minor, hd]
      have hdrop : l.drop (z + 1) = [] :=
        List.drop_eq_nil_of_le (List.getElem?_eq_none_iff.mp hd)
      simpa [hi, hdrop, positioned] using c.getNextTx_of_scan_from hmax hk hb hr hc

theorem Holds.info_lt_later {j : Nat} {x : XShardTxCursor}
    {rest : List (XShardTxCursorInfo × CrossShardTransactionDeposit)} (h : c.Holds j x rest)
    {e : XShardTxCursorInfo × CrossShardTransactionDeposit}
    (he : e ∈ m.depositSeq (c.blocks.drop (j + 1))) : x.getCursorInfo < e.1 := by
  obtain ⟨⟨top, htop, hmax⟩, hat⟩ := h
  obtain ⟨r', hr', he1, hlt⟩ := m.mem_depositSeq he
  have hge := c.le_number_of_mem_drop (List.prefix_refl _) hr'
  have htopn := c.number_eq j top htop
  cases hat with
  | eof hr hi hz =>
    -- the end sits before the next root block
    rw [XShardTxCursor.getCursorInfo_of_none hr, hmax, hi, hz]
    rcases (show top.header.number + 1 ≤ r'.header.number by omega).lt_or_eq with hlt' | heq
    · exact XShardTxCursorInfo.lt_of_height_lt (by simp only; omega)
    · rw [heq]
      exact hlt
  | @root k r hk hb hr hi hz =>
    rw [XShardTxCursor.getCursorInfo_of_some hr]
    exact XShardTxCursorInfo.lt_of_height_lt (by simp only [c.number_eq k r hb]; omega)
  | @coinbase k r hk hb hr hi hz =>
    rw [XShardTxCursor.getCursorInfo_of_some hr]
    exact XShardTxCursorInfo.lt_of_height_lt (by simp only [c.number_eq k r hb]; omega)
  | @minor k r i z h l hk hb hr hi hz hh hrecv hl hxl hzl =>
    rw [XShardTxCursor.getCursorInfo_of_some hr]
    exact XShardTxCursorInfo.lt_of_height_lt (by simp only [c.number_eq k r hb]; omega)

/-- Where a cursor stands splits the deposit order: what comes before has been
handed out, what comes after is `rest`; and the cursor info is an end marker
or the position of the last deposit handed out. -/
theorem Holds.splitsAt {j : Nat} {x : XShardTxCursor}
    {rest : List (XShardTxCursorInfo × CrossShardTransactionDeposit)} (h : c.Holds j x rest) :
    ∃ pre, List.SplitsAt x.getCursorInfo (m.depositSeq (c.blocks.take (j + 1))) pre rest ∧
      ((x.getCursorInfo.minorBlockIndex = 0 ∧ x.getCursorInfo.xShardDepositIndex = 0) ∨
        x.getCursorInfo ∈ pre.map (·.1)) := by
  obtain ⟨⟨top, htop, hmax⟩, hat⟩ := h
  cases hat with
  | eof hr hi hz =>
    rw [XShardTxCursor.getCursorInfo_of_none hr, hmax, hi, hz]
    refine ⟨_, ⟨(List.append_nil _).symm, fun e he => ?_, by simp⟩, .inl ⟨rfl, rfl⟩⟩
    have := c.height_lt_of_mem_take he
    exact (XShardTxCursorInfo.lt_of_height_lt (by simp only [c.number_eq j top htop]; omega)).le
  | @root k r hk hb hr hi hz =>
    rw [XShardTxCursor.getCursorInfo_of_some hr, hi, hz]
    have hnum := c.number_eq k r hb
    refine ⟨m.depositSeq (c.blocks.take k), ⟨?_, fun e he => ?_, fun e he => ?_⟩, .inl ⟨rfl, rfl⟩⟩
    · rw [c.depositSeq_take_eq (show k ≤ j + 1 by omega), c.seqBetween_eq_cons hk hb]
    · have := c.height_lt_of_mem_take he
      exact (XShardTxCursorInfo.lt_of_height_lt (by simp only; omega)).le
    · rcases List.mem_append.mp he with he | he
      · exact (m.mem_rootDeposits he).2
      · have := c.height_ge_of_mem_seqBetween he
        exact XShardTxCursorInfo.lt_of_height_lt (by simp only; omega)
  | @coinbase k r hk hb hr hi hz =>
    rw [XShardTxCursor.getCursorInfo_of_some hr, hi, hz]
    have hnum := c.number_eq k r hb
    refine ⟨m.depositSeq (c.blocks.take k) ++ [(⟨r.header.number, 0, 1⟩, m.coinbaseDeposit r)],
      ⟨?_, fun e he => ?_, fun e he => ?_⟩, .inr (by simp)⟩
    · rw [c.depositSeq_take_eq (show k ≤ j + 1 by omega), c.seqBetween_eq_cons hk hb]
      simp [MinorBlockChain.rootDeposits]
    · rcases List.mem_append.mp he with he | he
      · have := c.height_lt_of_mem_take he
        exact (XShardTxCursorInfo.lt_of_height_lt (by simp only; omega)).le
      · rw [List.mem_singleton.mp he]
    · rcases List.mem_append.mp he with he | he
      · obtain ⟨h1, h2, -⟩ := m.mem_minorDeposits he
        exact XShardTxCursorInfo.lt_of_index_lt h1.symm (by simp only; omega)
      · have := c.height_ge_of_mem_seqBetween he
        exact XShardTxCursorInfo.lt_of_height_lt (by simp only; omega)
  | @minor k r i z h l hk hb hr hi hz hh hrecv hl hxl hzl =>
    rw [XShardTxCursor.getCursorInfo_of_some hr, hi, hz]
    have hnum := c.number_eq k r hb
    have hilen := (List.getElem?_eq_some_iff.mp hh).1
    -- the root block's deposits, cut at deposit `z` of its `(i+1)`-th minor block
    have hmd : m.minorDeposits r.header.number 1 r.minorBlockHeaders =
        m.minorDeposits r.header.number 1 (r.minorBlockHeaders.take i) ++
          positioned r.header.number (i + 1) 0 (l.take (z + 1)) ++
          (positioned r.header.number (i + 1) (z + 1) (l.drop (z + 1)) ++
            m.minorDeposits r.header.number (i + 2) (r.minorBlockHeaders.drop (i + 1))) := by
      conv_lhs => rw [← List.take_append_drop i r.minorBlockHeaders,
        List.drop_eq_getElem_cons hilen, (List.getElem?_eq_some_iff.mp hh).2]
      rw [m.minorDeposits_append, List.length_take_of_le hilen.le, MinorBlockChain.minorDeposits,
        if_pos hrecv, hl, Option.getD_some]
      conv_lhs => rw [← List.take_append_drop (z + 1) l, positioned_append,
        List.length_take_of_le hzl]
      simp only [List.append_assoc, Nat.add_comm 1 i, Nat.zero_add]
    refine ⟨m.depositSeq (c.blocks.take k) ++ [(⟨r.header.number, 0, 1⟩, m.coinbaseDeposit r)] ++
        m.minorDeposits r.header.number 1 (r.minorBlockHeaders.take i) ++
        positioned r.header.number (i + 1) 0 (l.take (z + 1)),
      ⟨?_, fun e he => ?_, fun e he => ?_⟩, .inr ?_⟩
    · rw [c.depositSeq_take_eq (show k ≤ j + 1 by omega), c.seqBetween_eq_cons hk hb, MinorBlockChain.rootDeposits,
        hmd]
      simp
    · simp only [List.mem_append, List.mem_singleton] at he
      rcases he with ((he | rfl) | he) | he
      · have := c.height_lt_of_mem_take he
        exact (XShardTxCursorInfo.lt_of_height_lt (by simp only; omega)).le
      · exact le_of_lt (XShardTxCursorInfo.lt_of_index_lt rfl (Nat.succ_pos i))
      · obtain ⟨h1, -, h3⟩ := m.mem_minorDeposits he
        have := List.length_take_le i r.minorBlockHeaders
        exact (XShardTxCursorInfo.lt_of_index_lt h1 (by simp only; omega)).le
      · obtain ⟨h1, h2, -, h4⟩ := mem_positioned he
        have := List.length_take_le (z + 1) l
        exact XShardTxCursorInfo.le_of_deposit_le h1 h2 (by simp only; omega)
    · simp only [List.mem_append] at he
      rcases he with (he | he) | he
      · obtain ⟨h1, h2, h3, -⟩ := mem_positioned he
        exact XShardTxCursorInfo.lt_of_deposit_lt h1.symm h2.symm (by simp only; omega)
      · obtain ⟨h1, h2, -⟩ := m.mem_minorDeposits he
        exact XShardTxCursorInfo.lt_of_index_lt h1.symm (by simp only; omega)
      · have := c.height_ge_of_mem_seqBetween he
        exact XShardTxCursorInfo.lt_of_height_lt (by simp only; omega)
    · -- the last deposit handed out is deposit `z` of the minor block
      obtain ⟨d, hd⟩ : ∃ d, (l.take (z + 1))[z]? = some d :=
        ⟨l[z], by rw [List.getElem?_take_of_lt (Nat.lt_succ_self z), List.getElem?_eq_getElem hzl]⟩
      have hmem := mem_positioned_of_getElem? (x := r.header.number) (i := i + 1) (z := 0) hd
      rw [Nat.zero_add] at hmem
      exact List.mem_map.mpr ⟨_, List.mem_append_right _ hmem, rfl⟩

open XShardTxCursor in
/-- A run of `n` calls of `getNextTx` hands out the first `n` deposits still to come. -/
theorem takeDeposits_holds {j : Nat} (n : Nat) :
    ∀ {x : XShardTxCursor} {rest : List (XShardTxCursorInfo × CrossShardTransactionDeposit)},
      c.Holds j x rest → ∃ x', takeDeposits m n x = .ok ((rest.take n).map (·.2), x') ∧
        c.Holds j x' (rest.drop n) := by
  induction n with
  | zero => intro x rest h; exact ⟨x, rfl, h⟩
  | succ n ih =>
    intro x rest h
    obtain ⟨x1, hnext, h1⟩ := c.getNextTx_holds h
    cases rest with
    | nil => exact ⟨x1, by simp [takeDeposits, hnext], h1⟩
    | cons e rest =>
      obtain ⟨x', htake, h'⟩ := ih h1
      exact ⟨x', by simp [takeDeposits, hnext, htake], h'⟩

/-- The cursor infos a block can resume from when its previous root block is
the `j`-th: the end, the start of a root block, a root block's coinbase, or a
deposit of one of its minor blocks. -/
inductive Resumable (j : Nat) : XShardTxCursorInfo → Prop
  | eof {top : RootBlock} (htop : c.blocks[j]? = some top) :
    Resumable j ⟨top.header.number + 1, 0, 0⟩
  | root {k : Nat} {r : RootBlock} (hk : k ≤ j) (hb : c.blocks[k]? = some r) :
    Resumable j ⟨r.header.number, 0, 0⟩
  | coinbase {k : Nat} {r : RootBlock} (hk : k ≤ j) (hb : c.blocks[k]? = some r) :
    Resumable j ⟨r.header.number, 0, 1⟩
  | minor {k : Nat} {r : RootBlock} {i z : Nat} {h : MinorBlockHeader}
    {l : List CrossShardTransactionDeposit} (hk : k ≤ j) (hb : c.blocks[k]? = some r)
    (hh : r.minorBlockHeaders[i]? = some h) (hrecv : m.receivesFrom r.header.number h = true)
    (hl : m.xShardLists h.hash = some l) (hzl : z < l.length) :
    Resumable j ⟨r.header.number, i + 1, z⟩

theorem Holds.resumable {j : Nat} {x : XShardTxCursor}
    {rest : List (XShardTxCursorInfo × CrossShardTransactionDeposit)} (h : c.Holds j x rest) :
    c.Resumable j x.getCursorInfo := by
  obtain ⟨⟨top, htop, hmax⟩, hat⟩ := h
  cases hat with
  | eof hr hi hz =>
    rw [XShardTxCursor.getCursorInfo_of_none hr, hmax, hi, hz]
    exact Resumable.eof htop
  | root hk hb hr hi hz =>
    rw [XShardTxCursor.getCursorInfo_of_some hr, hi, hz]
    exact Resumable.root hk hb
  | coinbase hk hb hr hi hz =>
    rw [XShardTxCursor.getCursorInfo_of_some hr, hi, hz]
    exact Resumable.coinbase hk hb
  | minor hk hb hr hi hz hh hrecv hl hxl hzl =>
    rw [XShardTxCursor.getCursorInfo_of_some hr, hi, hz]
    exact Resumable.minor hk hb hh hrecv hl hzl

/-- A later block's previous root block is at or above the earlier one's: the
end marker becomes the start of the next root block, if there is one. -/
theorem Resumable.mono {j j' : Nat} {info : XShardTxCursorInfo} (h : c.Resumable j info)
    (hj : j ≤ j') (hlen : j' < c.blocks.length) : c.Resumable j' info := by
  cases h with
  | @eof top htop =>
    rcases hj.lt_or_eq with hlt | rfl
    · obtain ⟨r, hr⟩ : ∃ r, c.blocks[j + 1]? = some r :=
        ⟨c.blocks[j + 1], List.getElem?_eq_getElem (by omega)⟩
      have hnum : top.header.number + 1 = r.header.number := by
        rw [c.number_eq j top htop, c.number_eq (j + 1) r hr]; rfl
      rw [hnum]
      exact Resumable.root hlt hr
    · exact Resumable.eof htop
  | root hk hb => exact Resumable.root (hk.trans hj) hb
  | coinbase hk hb => exact Resumable.coinbase (hk.trans hj) hb
  | minor hk hb hh hrecv hl hzl => exact Resumable.minor (hk.trans hj) hb hh hrecv hl hzl

open XShardTxCursor in
/-- `NewXShardTxCursor` at a resumable cursor info recovers a cursor standing there. -/
theorem newXShardTxCursor_holds {j : Nat} {info : XShardTxCursorInfo} (h : c.Resumable j info)
    {top : RootBlock} (htop : c.blocks[j]? = some top) {hdr : MinorBlockHeader}
    (hprev : hdr.prevRootBlockHash = top.header.hash) :
    ∃ x rest, newXShardTxCursor m hdr info = .ok x ∧ c.Holds j x rest ∧
      x.getCursorInfo = info := by
  have hmax : m.getRootBlockByHash hdr.prevRootBlockHash = some top := by
    rw [hprev]; exact c.stored top (List.mem_of_getElem? htop)
  cases h with
  | @eof top' htop' =>
    rw [htop] at htop'
    cases htop'
    have hh := c.getRootBlockHeaderByHeight_of_lt htop (Nat.lt_succ_self top.header.number)
    rw [← hprev] at hh
    exact ⟨_, _, newXShardTxCursor_of_eof m hmax hh, ⟨⟨top, htop, rfl⟩, At.eof rfl rfl rfl⟩,
      getCursorInfo_of_none rfl⟩
  | @root k r hk hb =>
    have hh := c.getRootBlockHeaderByHeight_of_le htop hb hk
    rw [← hprev, ← c.number_eq k r hb] at hh
    have hr := c.stored r (List.mem_of_getElem? hb)
    exact ⟨_, _, newXShardTxCursor_of_root m hmax hh hr rfl,
      ⟨⟨top, htop, rfl⟩, At.root hk hb rfl rfl rfl⟩, getCursorInfo_of_some rfl⟩
  | @coinbase k r hk hb =>
    have hh := c.getRootBlockHeaderByHeight_of_le htop hb hk
    rw [← hprev, ← c.number_eq k r hb] at hh
    have hr := c.stored r (List.mem_of_getElem? hb)
    exact ⟨_, _, newXShardTxCursor_of_root m hmax hh hr rfl,
      ⟨⟨top, htop, rfl⟩, At.coinbase hk hb rfl rfl rfl⟩, getCursorInfo_of_some rfl⟩
  | @minor k r i z h l hk hb hh' hrecv hl hzl =>
    have hh := c.getRootBlockHeaderByHeight_of_le htop hb hk
    rw [← hprev, ← c.number_eq k r hb] at hh
    have hr := c.stored r (List.mem_of_getElem? hb)
    have hnew : newXShardTxCursor m hdr ⟨r.header.number, i + 1, z⟩ = _ :=
      newXShardTxCursor_of_minor m hmax hh hr rfl hh'
    rw [hl] at hnew
    exact ⟨_, _, hnew, ⟨⟨top, htop, rfl⟩, At.minor hk hb rfl rfl rfl hh' hrecv hl rfl hzl⟩,
      getCursorInfo_of_some rfl⟩

/-- The blocks' previous root blocks are on the chain, each at or above the
one before, the first at or above the `j`-th. -/
def Ascending : Nat → List (MinorBlockHeader × Nat) → Prop
  | _, [] => True
  | j, (header, _) :: runs => ∃ j' top, j ≤ j' ∧ c.blocks[j']? = some top ∧
      header.prevRootBlockHash = top.header.hash ∧ Ascending j' runs

/-- The uninterrupted deposit order cut at height `h`: the deposits of the chain's
root blocks up to it. -/
def depositsUpTo (h : Nat) : List (XShardTxCursorInfo × CrossShardTransactionDeposit) :=
  (m.depositSeq c.blocks).filter (·.1.rootBlockHeight ≤ h)

/-- What the blocks of `runs` are to hand out once `done` deposits of the order are
handed out: each block the next `n` deposits of the order cut at its previous root
block, found by hash. -/
def expectedRuns (done : Nat) :
    List (MinorBlockHeader × Nat) → List (List CrossShardTransactionDeposit)
  | [] => []
  | (header, n) :: runs =>
    let upTo := match m.getRootBlockByHash header.prevRootBlockHash with
      | some top => c.depositsUpTo top.header.number
      | none => []
    let out := (upTo.drop done).take n
    out.map (·.2) :: expectedRuns (done + out.length) runs

/-- Cut at the `j`-th root block, the order is that of the chain's first `j + 1`
root blocks. -/
theorem depositsUpTo_eq {j : Nat} {top : RootBlock} (htop : c.blocks[j]? = some top) :
    c.depositsUpTo top.header.number = m.depositSeq (c.blocks.take (j + 1)) := by
  have hnum := c.number_eq j top htop
  rw [depositsUpTo, c.depositSeq_blocks_eq j, List.filter_append,
    List.filter_eq_self.mpr, List.filter_eq_nil_iff.mpr, List.append_nil]
  · -- the later root blocks are above the cut
    intro e he
    obtain ⟨r, hr, he1, -⟩ := m.mem_depositSeq he
    have hge := c.le_number_of_mem_drop (List.prefix_refl _) hr
    rw [he1, decide_eq_true_eq]
    omega
  · intro e he
    have hlt := c.height_lt_of_mem_take he
    rw [decide_eq_true_eq]
    omega

/-- `Holds.splitsAt`, over the whole chain. -/
theorem Holds.splitsAt_blocks {j : Nat} {x : XShardTxCursor}
    {rest : List (XShardTxCursorInfo × CrossShardTransactionDeposit)} (h : c.Holds j x rest) :
    ∃ pre, List.SplitsAt x.getCursorInfo (m.depositSeq c.blocks) pre
        (rest ++ m.depositSeq (c.blocks.drop (j + 1))) ∧
      ((x.getCursorInfo.minorBlockIndex = 0 ∧ x.getCursorInfo.xShardDepositIndex = 0) ∨
        x.getCursorInfo ∈ pre.map (·.1)) := by
  obtain ⟨pre, hsplit, hinfo⟩ := Holds.splitsAt c h
  rw [c.depositSeq_blocks_eq j]
  exact ⟨pre, hsplit.append fun e he => Holds.info_lt_later c h he, hinfo⟩

open XShardTxCursor in
/-- The step lemma: a block whose previous root block is the `j`-th recovers its cursor
from a resumable info that splits the order after `pre`, hands out the next `n` deposits
of the order cut at that root block, and saves an info that splits the order after
them. -/
theorem blockCursor_step {j : Nat} {top : RootBlock} {header : MinorBlockHeader} (n : Nat)
    {info : XShardTxCursorInfo} {pre rest : List (XShardTxCursorInfo × CrossShardTransactionDeposit)}
    (hres : c.Resumable j info) (htop : c.blocks[j]? = some top)
    (hprev : header.prevRootBlockHash = top.header.hash)
    (hsplit : List.SplitsAt info (m.depositSeq c.blocks) pre rest) :
    ∃ x x' restx rest', newXShardTxCursor m header info = .ok x ∧
      takeDeposits m n x = .ok ((restx.take n).map (·.2), x') ∧
      m.getRootBlockByHash header.prevRootBlockHash = some top ∧
      c.depositsUpTo top.header.number = pre ++ restx ∧
      List.SplitsAt x'.getCursorInfo (m.depositSeq c.blocks) (pre ++ restx.take n) rest' ∧
      ((x'.getCursorInfo.minorBlockIndex = 0 ∧ x'.getCursorInfo.xShardDepositIndex = 0) ∨
        x'.getCursorInfo ∈ (pre ++ restx.take n).map (·.1)) ∧
      c.Resumable j x'.getCursorInfo := by
  -- the block recovers its cursor where the last one stopped
  obtain ⟨x, restx, hnew, hx, hxinfo⟩ := c.newXShardTxCursor_holds hres htop hprev
  obtain ⟨p0, hsplit0, -⟩ := Holds.splitsAt_blocks c hx
  rw [hxinfo] at hsplit0
  obtain ⟨rfl, -⟩ := hsplit0.unique hsplit
  -- what it can reach is the order cut at its previous root block
  have hfound : m.getRootBlockByHash header.prevRootBlockHash = some top := by
    rw [hprev]
    exact c.stored top (List.mem_of_getElem? htop)
  have hupTo : c.depositsUpTo top.header.number = p0 ++ restx := by
    have h := (c.depositSeq_blocks_eq j).symm.trans hsplit0.1
    rw [← List.append_assoc] at h
    rw [c.depositsUpTo_eq htop]
    exact List.append_cancel_right h
  -- and it runs its cursor for `n` deposits
  obtain ⟨x', htake, hx'⟩ := c.takeDeposits_holds n hx
  obtain ⟨p1, hsplit1, hinfo1⟩ := Holds.splitsAt_blocks c hx'
  have hp1 : p1 = p0 ++ restx.take n := by
    have h := hsplit0.1.symm.trans hsplit1.1
    nth_rewrite 1 [← List.take_append_drop n restx] at h
    rw [List.append_assoc, ← List.append_assoc p0] at h
    exact (List.append_cancel_right h).symm
  subst hp1
  exact ⟨x, x', restx, _, hnew, htake, hfound, hupTo, hsplit1, hinfo1, Holds.resumable c hx'⟩

open XShardTxCursor in
/-- The run lemma: from a split of the deposit order at a resumable info, the
blocks' cursors hand out the deposits that follow, in order, each block as many as
it asks for of those up to its previous root block, and stop at a new split. -/
theorem runCursors_splits (runs : List (MinorBlockHeader × Nat)) :
    ∀ (j : Nat) (info : XShardTxCursorInfo) (pre rest),
      (∀ top, c.blocks[j]? = some top → c.Resumable j info) → c.Ascending j runs →
      List.SplitsAt info (m.depositSeq c.blocks) pre rest →
      ((info.minorBlockIndex = 0 ∧ info.xShardDepositIndex = 0) ∨ info ∈ pre.map (·.1)) →
      ∃ outs info' pre' rest', runCursors m info runs = .ok (outs, info') ∧
        outs = c.expectedRuns pre.length runs ∧
        List.SplitsAt info' (m.depositSeq c.blocks) pre' rest' ∧
        pre'.map (·.2) = pre.map (·.2) ++ outs.flatten ∧
        ((info'.minorBlockIndex = 0 ∧ info'.xShardDepositIndex = 0) ∨ info' ∈ pre'.map (·.1)) := by
  induction runs with
  | nil =>
    intro j info pre rest _ _ hsplit hinfo
    exact ⟨[], info, pre, rest, rfl, rfl, hsplit, by simp, hinfo⟩
  | cons run runs ih =>
    intro j info pre rest hres hasc hsplit _
    obtain ⟨header, n⟩ := run
    obtain ⟨j', top, hj, htop, hprev, hasc'⟩ := hasc
    have hlen := (List.getElem?_eq_some_iff.mp htop).1
    have hres' : c.Resumable j' info := by
      obtain ⟨r, hr⟩ : ∃ r, c.blocks[j]? = some r :=
        ⟨c.blocks[j], List.getElem?_eq_getElem (by omega)⟩
      exact (hres r hr).mono c hj hlen
    obtain ⟨x, x', restx, rest₁, hnew, htake, hfound, hupTo, hsplit₁, hinfo₁, hres₁⟩ :=
      c.blockCursor_step n hres' htop hprev hsplit
    obtain ⟨outs, info', pre', rest', hrun, hexp, hsplit', hmap, hinfo'⟩ :=
      ih j' x'.getCursorInfo _ rest₁ (fun _ _ => hres₁) hasc' hsplit₁ hinfo₁
    refine ⟨(restx.take n).map (·.2) :: outs, info', pre', rest', ?_, ?_, hsplit', ?_, hinfo'⟩
    · simp [runCursors, hnew, htake, hrun]
    · rw [expectedRuns, hfound]
      dsimp only
      rw [hupTo, List.drop_left, hexp, List.length_append]
    · rw [hmap]
      simp

open XShardTxCursor in
/-- Across any sequence of blocks whose previous root blocks climb the chain,
each stopping after any number of deposits, each block's cursor hands out the next
deposits of the uninterrupted order up to its previous root block, as many as it
asks for (`expectedRuns`). Together they hand out a prefix of the order, each
deposit once and in order, and the info the last block saves separates what was
handed out from what is left: it is an end marker or the position of the last
deposit handed out. -/
theorem runCursors_deposits_once (runs : List (MinorBlockHeader × Nat))
    (hruns : c.Ascending 0 runs) :
    ∃ outs info pre rest, runCursors m ⟨m.genesisRootHeight, 0, 0⟩ runs = .ok (outs, info) ∧
      outs = c.expectedRuns 0 runs ∧
      m.depositSeq c.blocks = pre ++ rest ∧ outs.flatten = pre.map (·.2) ∧
      (∀ e ∈ pre, e.1 ≤ info) ∧ (∀ e ∈ rest, info < e.1) ∧
      ((info.minorBlockIndex = 0 ∧ info.xShardDepositIndex = 0) ∨ info ∈ pre.map (·.1)) := by
  -- the genesis block's cursor info stands before the first root block
  have hstart : List.SplitsAt (⟨m.genesisRootHeight, 0, 0⟩ : XShardTxCursorInfo)
      (m.depositSeq c.blocks) [] (m.depositSeq c.blocks) := by
    refine ⟨rfl, by simp, fun e he => ?_⟩
    obtain ⟨r, hr, -, hlt⟩ := m.mem_depositSeq he
    have hge := c.le_number_of_mem_drop (k := 0) (List.prefix_refl _) (by simpa using hr)
    rcases (show m.genesisRootHeight ≤ r.header.number by omega).lt_or_eq with hgt | heq
    · exact (XShardTxCursorInfo.lt_of_height_lt hgt).trans hlt
    · rw [heq]
      exact hlt
  have hres : ∀ top, c.blocks[0]? = some top →
      c.Resumable 0 ⟨m.genesisRootHeight, 0, 0⟩ := by
    intro top htop
    have h := Resumable.root (le_refl 0) htop
    rwa [c.number_eq 0 top htop] at h
  obtain ⟨outs, info, pre, rest, hrun, hexp, hsplit, hmap, hinfo⟩ :=
    c.runCursors_splits runs 0 _ [] _ hres hruns hstart (.inl ⟨rfl, rfl⟩)
  exact ⟨outs, info, pre, rest, hrun, hexp, hsplit.1, by simpa using hmap.symm, hsplit.2.1,
    hsplit.2.2, hinfo⟩

end RootChain

section ReceivingShardExample

open XShardTxCursor

/-- A block of shard `3`, mined on root block `11`, with a list for shard `2`. -/
def neighbourHeader : MinorBlockHeader := ⟨500, 1, 499, ⟨3⟩, 11⟩

def neighbourDeposit (txHash : Nat) : CrossShardTransactionDeposit :=
  { txHash := txHash, fromAddr := ⟨1, 1⟩, toAddr := ⟨2, 0⟩, value := 1, gasPrice := 0,
    gasRemained := 0, gasTokenID := 0, transferTokenID := 0, messageData := [],
    createContract := false, isFromRootChain := false }

/-- Root blocks `10`, `11` and `12`; the last confirms the neighbour's block. -/
def receivingRoots : List RootBlock :=
  [plainRoot 10 0 emptyHash 1, plainRoot 11 1 10 2, ⟨(plainRoot 12 2 11 3).header, [neighbourHeader]⟩]

theorem twoShardConfig_genesisRootHeight_two : twoShardConfig.getGenesisRootHeight 2 = some 0 :=
  rfl

/-- Shard `2` of `twoShardConfig`, created at root height `0`, with the three
root blocks and the neighbour's list stored. -/
def receivingShard : MinorBlockChain :=
  { branch := ⟨2⟩, quarkChainConfig := twoShardConfig, genesisRootHeight := 0,
    genesisRootHeight_eq := twoShardConfig_genesisRootHeight_two, maxBlocksInOneRootBlock := 8,
    rootBlocks := fun h => receivingRoots.find? (·.header.hash = h),
    lastConfirmed := fun _ => emptyHash, minorBlocks := fun _ => none,
    xShardLists := fun h =>
      if h = neighbourHeader.hash then some [neighbourDeposit 1, neighbourDeposit 2] else none,
    genesisBlocks := fun _ => none, canonical := fun _ => none,
    rootTip := (plainRoot 12 2 11 3).header, confirmedHeaderTip := none,
    currentBlock := ⟨⟨599, 0, emptyHash, ⟨2⟩, 10⟩, ⟨0, 0, 0⟩⟩,
    genesisBlock := ⟨⟨599, 0, emptyHash, ⟨2⟩, 10⟩, ⟨0, 0, 0⟩⟩ }

def receivingChain : RootChain receivingShard where
  blocks := receivingRoots
  number_eq k r h := by
    rcases k with _ | _ | _ | k <;> simp [receivingRoots] at h <;> subst h <;> rfl
  stored := by decide
  parent_eq k r r' h h' := by
    rcases k with _ | _ | k <;> simp [receivingRoots] at h h' <;> subst h h' <;> rfl
  listsStored r hr h hh := by
    simp only [receivingRoots, List.mem_cons, List.mem_nil_iff, or_false] at hr
    rcases hr with rfl | rfl | rfl <;> simp [plainRoot] at hh
    subst hh
    intro _ _
    exact ⟨plainRoot 11 1 10 2, rfl, by decide⟩

/-- Two blocks: the first on root block `11`, with gas for five deposits, the
second on root block `12`, with gas for two. -/
def receivingRuns : List (MinorBlockHeader × Nat) :=
  [(⟨600, 1, 599, ⟨2⟩, 11⟩, 5), (⟨601, 2, 600, ⟨2⟩, 12⟩, 2)]

theorem receivingRuns_deposits_once :
    receivingChain.Ascending 0 receivingRuns ∧
    ∃ outs info pre rest,
      runCursors receivingShard ⟨receivingShard.genesisRootHeight, 0, 0⟩ receivingRuns =
        .ok (outs, info) ∧
      outs = receivingChain.expectedRuns 0 receivingRuns ∧
      receivingShard.depositSeq receivingChain.blocks = pre ++ rest ∧
      outs.flatten = pre.map (·.2) ∧ (∀ e ∈ pre, e.1 ≤ info) ∧ (∀ e ∈ rest, info < e.1) ∧
      ((info.minorBlockIndex = 0 ∧ info.xShardDepositIndex = 0) ∨ info ∈ pre.map (·.1)) :=
  have hasc : receivingChain.Ascending 0 receivingRuns :=
    ⟨1, plainRoot 11 1 10 2, by decide, rfl, rfl, 2, receivingRoots[2], by decide, rfl, rfl, trivial⟩
  ⟨hasc, receivingChain.runCursors_deposits_once receivingRuns hasc⟩

/-- The first block hands out the coinbases of root blocks `10` and `11` and
stops at the end; the second resumes with root block `12`'s coinbase and the
neighbour's first deposit, and saves `(2, 1, 0)`. -/
example : (runCursors receivingShard ⟨0, 0, 0⟩ receivingRuns).map
    (fun r => (r.1.map (·.map (·.txHash)), r.2)) = .ok ([[10, 11], [12, 1]], ⟨2, 1, 0⟩) := by
  decide

/-- The same two lists, read off the uninterrupted order. -/
example : (receivingChain.expectedRuns 0 receivingRuns).map (·.map (·.txHash)) =
    [[10, 11], [12, 1]] := by
  decide

end ReceivingShardExample

end Core
