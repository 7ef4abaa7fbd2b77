import GoQuarkChain.Types.ChainMask
import GoQuarkChain.Config.QuarkChainConfig
import GoQuarkChain.Lib.ExceptState

/-!
# Which slave runs which shard

A slave runs the shards its chain masks contain. The master takes each slave's masks
from the cluster config, checks them against the slave's answer to a ping, and keeps
for every genesis shard the slaves that run it (`SlaveConnManager.InitConnManager`);
a request for a shard goes to the first of them (`GetOneSlaveConnById`). Each slave
works out its own shards from the same masks (`NewSlaveBackend`).

Once every ping checks out, the master lists a slave under a shard exactly when that
slave runs the shard (`master_lists_running_slaves`). The cluster configs built by
`NewClusterConfig` and `updateSlaves` give slave `i` of `n` the mask `i | n`. When `n`
is a power of two every shard is run by exactly one slave, the one its chain id picks
modulo `n`; otherwise no slave runs the chains whose id is `0` below the leading bit
of `n`, chain `0` among them.

The tables are filled by appending; the first section is about such tables alone.
-/

/-! ## Tables of buckets filled by appending -/

namespace Buckets

variable {κ α : Type*} [DecidableEq κ]

/-- Keeping the items `p` picks by appending each to an accumulator is a filter. -/
theorem foldl_append_filter (p : α → Bool) (l acc : List α) :
    l.foldl (fun acc x => if p x then acc ++ [x] else acc) acc = acc ++ l.filter p := by
  induction l generalizing acc with
  | nil => simp
  | cons x xs ih => cases h : p x <;> simp [h, ih]

/-- Append `x` to the bucket of every key of `ks` that `p` picks. -/
def appendTo (p : κ → Bool) (x : α) (ks : List κ) (t : κ → List α) : κ → List α :=
  ks.foldl (fun t k => if p k then Function.update t k (t k ++ [x]) else t) t

/-- Over keys without repeats, `x` lands once in each bucket it belongs to. -/
theorem appendTo_apply {ks : List κ} (hks : ks.Nodup) (p : κ → Bool) (x : α)
    (t : κ → List α) (k : κ) :
    appendTo p x ks t k = if k ∈ ks ∧ p k = true then t k ++ [x] else t k := by
  induction ks generalizing t with
  | nil => simp [appendTo]
  | cons k' ks ih =>
    rw [List.nodup_cons] at hks
    have hstep : appendTo p x (k' :: ks) t =
        appendTo p x ks (if p k' then Function.update t k' (t k' ++ [x]) else t) := rfl
    rw [hstep, ih hks.2]
    by_cases hk : k = k'
    · -- the key just passed is not met again
      subst hk
      cases p k <;> simp [hks.1]
    · -- another key's bucket is untouched by this step
      cases p k' <;> simp [hk]

/-- Passing the items of `xs` in turn over the keys `ks`, item `x` going to the keys
`p x` picks: each key of `ks` gets its items in order, and no other key gets any. -/
theorem foldl_appendTo_apply {ks : List κ} (hks : ks.Nodup) (p : α → κ → Bool)
    (xs : List α) (t : κ → List α) (k : κ) :
    xs.foldl (fun t x => appendTo (p x) x ks t) t k =
      if k ∈ ks then t k ++ xs.filter (p · k) else t k := by
  induction xs generalizing t with
  | nil => simp
  | cons x xs ih =>
    rw [List.foldl_cons, ih, appendTo_apply hks]
    by_cases hk : k ∈ ks
    · cases hp : p x k <;> simp [hk, hp]
    · simp [hk]

end Buckets

namespace Cluster

open Types Config

/-! ## Slaves, their masks and the master's table -/

/-- A slave's entry of the cluster config (`SlaveConfig`); its address is left out. -/
structure SlaveConfig where
  id : String
  chainMaskList : List ChainMask
deriving DecidableEq, Repr

/-- The fields of `ClusterConfig` that the shard assignment reads. -/
structure ClusterConfig where
  quarkchain : QuarkChainConfig
  slaveList : List SlaveConfig

/-- The loop of `SlaveConnection.HasShard`, `SlaveConn.HasShard` and
`SlaveBackend.coverShardId`: some mask of the list contains the shard. -/
def chainMasksContain (chainMaskList : List ChainMask) (fullShardId : Nat) : Bool :=
  chainMaskList.any fun chainMask => chainMask.containFullShardId fullShardId

/-- The master's connection to a slave (`master.SlaveConnection`). -/
structure SlaveConnection where
  slaveID : String
  shardMaskList : List ChainMask
deriving DecidableEq, Repr

/-- `NewSlaveConn(target, shardMaskList, slaveID)`, without the target. -/
def newSlaveConn (shardMaskList : List ChainMask) (slaveID : String) : SlaveConnection :=
  ⟨slaveID, shardMaskList⟩

def SlaveConnection.hasShard (s : SlaveConnection) (fullShardID : Nat) : Bool :=
  chainMasksContain s.shardMaskList fullShardID

/-- `checkPing`: the slave answered with the id and the masks the master expects. -/
def checkPing (slaveConn : SlaveConnection) (id : String) (chainMaskList : List ChainMask) :
    Except String Unit :=
  if slaveConn.slaveID ≠ id then .error "slaveID is not match"
  else if chainMaskList.length ≠ slaveConn.shardMaskList.length then
    .error "chainMaskList is not match"
  else if (chainMaskList.zip slaveConn.shardMaskList).any
      (fun p => p.1.getMask ≠ p.2.getMask) then
    .error "chainMaskList index is not match"
  else .ok ()

/-- The master's `SlaveConnManager`. A key of the Go map `branchToSlaveConns` is set
only by an append, so it is there exactly when its list is not empty; a function to
lists, empty by default, holds the same. -/
structure SlaveConnManager where
  clientPool : List SlaveConnection
  branchToSlaveConns : Nat → List SlaveConnection
  count : Nat

def SlaveConnManager.empty : SlaveConnManager := ⟨[], fun _ => [], 0⟩

/-- What a pass of `InitConnManager`'s loop does once the slave's ping checks out:
keep the connection, and list it under every genesis shard it has. -/
def SlaveConnManager.connect (fullShardIds : List Nat) (s : SlaveConnManager)
    (cfg : SlaveConfig) : SlaveConnManager :=
  let client := newSlaveConn cfg.chainMaskList cfg.id
  { s with
    clientPool := s.clientPool ++ [client]
    branchToSlaveConns := Buckets.appendTo client.hasShard client fullShardIds
      s.branchToSlaveConns }

section Init

-- the slave's answer to a ping (`SendPing`): its id and its masks, or a network error
variable (sendPing : SlaveConnection → Except String (String × List ChainMask))

/-- A pass of `InitConnManager`'s loop: connect, ping, check the answer, then list the
slave under its shards. -/
def connectSlave (fullShardIds : List Nat) (s : SlaveConnManager) (cfg : SlaveConfig) :
    Except String SlaveConnManager := do
  let client := newSlaveConn cfg.chainMaskList cfg.id
  let (id, chainMaskList) ← sendPing client
  checkPing client id chainMaskList
  pure (s.connect fullShardIds cfg)

/-- `InitConnManager`. -/
def initConnManager (cfg : ClusterConfig) : Except String SlaveConnManager := do
  let fullShardIds := cfg.quarkchain.getGenesisShardIds
  let s ← cfg.slaveList.foldlM (connectSlave sendPing fullShardIds) SlaveConnManager.empty
  pure { s with count := s.clientPool.length }

/-- The slave answers a ping with its own id and with masks equal to its configured ones. -/
def PingAgrees (cfg : SlaveConfig) : Prop :=
  ∃ chainMaskList, sendPing (newSlaveConn cfg.chainMaskList cfg.id) = .ok (cfg.id, chainMaskList) ∧
    chainMaskList.map ChainMask.getMask = cfg.chainMaskList.map ChainMask.getMask

end Init

def SlaveConnManager.getSlaveConnsById (c : SlaveConnManager) (fullShardId : Nat) :
    List SlaveConnection :=
  c.branchToSlaveConns fullShardId

/-- `GetOneSlaveConnById`: the first slave listed for the shard, none when no slave is. -/
def SlaveConnManager.getOneSlaveConnById (c : SlaveConnManager) (fullShardId : Nat) :
    Option SlaveConnection :=
  (c.branchToSlaveConns fullShardId).head?

/-- The shards a slave runs, as `NewSlaveBackend` lists them. -/
structure SlaveBackend where
  config : SlaveConfig
  fullShardList : List Nat

def SlaveBackend.coverShardId (s : SlaveBackend) (id : Nat) : Bool :=
  chainMasksContain s.config.chainMaskList id

/-- `NewSlaveBackend`: the genesis shards the slave's masks cover. -/
def newSlaveBackend (clusterCfg : ClusterConfig) (cfg : SlaveConfig) : SlaveBackend :=
  let slave : SlaveBackend := ⟨cfg, []⟩
  let fullShardIds := clusterCfg.quarkchain.getGenesisShardIds
  { slave with
    fullShardList := fullShardIds.foldl
      (fun acc id => if slave.coverShardId id then acc ++ [id] else acc) [] }

/-! ## Default slave masks -/

/-- `DefaultNumSlaves`. -/
def defaultNumSlaves : Nat := 4

/-- Slave `i` of `numSlaves` in `NewClusterConfig` and `updateSlaves`: id `S{i}` and the
one mask `NewChainMask(uint32(i | numSlaves))`. A zero mask, which needs `2 ^ 32`
slaves or more, would be a nil mask in Go and is no mask here. -/
def slaveConfigOf (numSlaves i : Nat) : SlaveConfig where
  id := s!"S{i}"
  chainMaskList := (newChainMask ((i ||| numSlaves) % 2 ^ 32)).toList

/-- The slave list of `NewClusterConfig`. -/
def newClusterSlaveList : List SlaveConfig :=
  (List.range defaultNumSlaves).map (slaveConfigOf defaultNumSlaves)

/-- `updateSlaves` of the config manager: `numSlaves` slaves, or as many as the config
had when `numSlaves` is `0`. -/
def updateSlaves (cfg : ClusterConfig) (numSlaves : Nat) : ClusterConfig :=
  let numSlaves := if numSlaves = 0 then cfg.slaveList.length else numSlaves
  { cfg with slaveList := (List.range numSlaves).map (slaveConfigOf numSlaves) }

example : newClusterSlaveList.map SlaveConfig.chainMaskList =
    [[⟨4⟩], [⟨5⟩], [⟨6⟩], [⟨7⟩]] := by
  decide

/-! ## The master's table and the slaves' shard lists -/

section Table

variable {sendPing : SlaveConnection → Except String (String × List ChainMask)}

/-- `checkPing`'s index-by-index comparison of two lists of one length finds no
difference exactly when they have the same masks. -/
theorem zip_any_getMask_ne_eq_false {l₁ l₂ : List ChainMask} (hlen : l₁.length = l₂.length) :
    ((l₁.zip l₂).any fun p => p.1.getMask ≠ p.2.getMask) = false ↔
      l₁.map ChainMask.getMask = l₂.map ChainMask.getMask := by
  induction l₁ generalizing l₂ with
  | nil =>
    cases l₂ with
    | nil => simp
    | cons => simp at hlen
  | cons a l₁ ih =>
    cases l₂ with
    | nil => simp at hlen
    | cons b l₂ =>
      simp only [List.length_cons, Nat.add_right_cancel_iff] at hlen
      simp only [List.zip_cons_cons, List.any_cons, Bool.or_eq_false_iff, decide_eq_false_iff_not,
        not_not, ih hlen, List.map_cons, List.cons.injEq]

/-- A ping checks out when the answer names the slave and carries its masks. -/
theorem checkPing_eq_ok {slaveConn : SlaveConnection} {id : String}
    {chainMaskList : List ChainMask} :
    checkPing slaveConn id chainMaskList = .ok () ↔ slaveConn.slaveID = id ∧
      chainMaskList.map ChainMask.getMask = slaveConn.shardMaskList.map ChainMask.getMask := by
  unfold checkPing
  by_cases hid : slaveConn.slaveID = id
  · by_cases hlen : chainMaskList.length = slaveConn.shardMaskList.length
    · rw [if_neg (not_not.mpr hid), if_neg (not_not.mpr hlen), ← zip_any_getMask_ne_eq_false hlen]
      cases (chainMaskList.zip slaveConn.shardMaskList).any
        (fun p => p.1.getMask ≠ p.2.getMask) <;> simp [hid]
    · -- lists of other lengths have other masks
      have hne : chainMaskList.map ChainMask.getMask ≠ slaveConn.shardMaskList.map ChainMask.getMask :=
        fun h => hlen (by simpa using congrArg List.length h)
      simp [hid, hlen, hne]
  · simp [hid]

/-- A pass of the loop fails, or succeeds with `connect` exactly when the ping agrees. -/
theorem connectSlave_eq_ok {fullShardIds : List Nat} {s s' : SlaveConnManager}
    {cfg : SlaveConfig} :
    connectSlave sendPing fullShardIds s cfg = .ok s' ↔
      PingAgrees sendPing cfg ∧ s' = s.connect fullShardIds cfg := by
  simp only [connectSlave, Except.bind_eq_ok, PingAgrees]
  constructor
  · rintro ⟨⟨id, masks⟩, hping, u, hcheck, hs'⟩
    obtain ⟨hid, hmasks⟩ := checkPing_eq_ok.mp hcheck
    subst hid
    exact ⟨⟨masks, hping, hmasks⟩, (Except.ok.inj hs').symm⟩
  · rintro ⟨⟨masks, hping, hmasks⟩, rfl⟩
    exact ⟨(cfg.id, masks), hping, (), checkPing_eq_ok.mpr ⟨rfl, hmasks⟩, rfl⟩

theorem foldl_connect_clientPool (fullShardIds : List Nat) (slaveList : List SlaveConfig)
    (s : SlaveConnManager) :
    (slaveList.foldl (SlaveConnManager.connect fullShardIds) s).clientPool =
      s.clientPool ++ slaveList.map fun cfg => newSlaveConn cfg.chainMaskList cfg.id := by
  induction slaveList generalizing s with
  | nil => simp
  | cons cfg slaveList ih => simp [ih, SlaveConnManager.connect]

/-- The table the loop builds is the bucket table of the slaves' connections. -/
theorem foldl_connect_branchToSlaveConns (fullShardIds : List Nat)
    (slaveList : List SlaveConfig) (s : SlaveConnManager) :
    (slaveList.foldl (SlaveConnManager.connect fullShardIds) s).branchToSlaveConns =
      (slaveList.map fun cfg => newSlaveConn cfg.chainMaskList cfg.id).foldl
        (fun t client => Buckets.appendTo client.hasShard client fullShardIds t)
        s.branchToSlaveConns := by
  induction slaveList generalizing s with
  | nil => rfl
  | cons cfg slaveList ih => rw [List.foldl_cons, ih]; rfl

/-- `InitConnManager` succeeds exactly when every slave's ping agrees with its config,
and then it has run `connect` for every slave in turn. -/
theorem initConnManager_eq_ok {cfg : ClusterConfig} {m : SlaveConnManager} :
    initConnManager sendPing cfg = .ok m ↔
      (∀ slave ∈ cfg.slaveList, PingAgrees sendPing slave) ∧
        m = { cfg.slaveList.foldl (SlaveConnManager.connect cfg.quarkchain.getGenesisShardIds)
          .empty with count := cfg.slaveList.length } := by
  have hloop := fun r => Except.foldlM_eq_ok_iff
    (SlaveConnManager.connect cfg.quarkchain.getGenesisShardIds) (PingAgrees sendPing)
    (fun _ _ _ => connectSlave_eq_ok) (l := cfg.slaveList) (b := .empty) (r := r)
  -- the manager's count is the length of its pool, one connection for each slave
  have hcount : (cfg.slaveList.foldl (SlaveConnManager.connect cfg.quarkchain.getGenesisShardIds)
      .empty).clientPool.length = cfg.slaveList.length := by
    simp [foldl_connect_clientPool, SlaveConnManager.empty]
  simp only [initConnManager, Except.bind_eq_ok, Except.pure_eq_ok]
  constructor
  · rintro ⟨s, hs, hm⟩
    obtain ⟨hall, rfl⟩ := (hloop s).mp hs
    exact ⟨hall, by rw [← Except.ok.inj hm, hcount]⟩
  · rintro ⟨hall, rfl⟩
    exact ⟨_, (hloop _).mpr ⟨hall, rfl⟩, by rw [hcount]⟩

theorem SlaveConnManager.getOneSlaveConnById_eq_head? (c : SlaveConnManager) (fullShardId : Nat) :
    c.getOneSlaveConnById fullShardId = (c.getSlaveConnsById fullShardId).head? := rfl

/-- Once every ping checks out, the master lists under each genesis shard the slaves that
run it, in config order, and nothing under any other id. -/
theorem getSlaveConnsById_of_init {cfg : ClusterConfig} {m : SlaveConnManager}
    (hm : initConnManager sendPing cfg = .ok m) (fullShardId : Nat) :
    m.getSlaveConnsById fullShardId =
      if fullShardId ∈ cfg.quarkchain.getGenesisShardIds then
        (cfg.slaveList.map fun slave => newSlaveConn slave.chainMaskList slave.id).filter
          (·.hasShard fullShardId)
      else [] := by
  obtain ⟨-, rfl⟩ := initConnManager_eq_ok.mp hm
  show (cfg.slaveList.foldl (SlaveConnManager.connect cfg.quarkchain.getGenesisShardIds)
    .empty).branchToSlaveConns fullShardId = _
  rw [foldl_connect_branchToSlaveConns,
    Buckets.foldl_appendTo_apply cfg.quarkchain.getGenesisShardIds_nodup]
  rfl

/-- `NewSlaveBackend` keeps the genesis shards the slave's masks contain. -/
theorem newSlaveBackend_fullShardList (clusterCfg : ClusterConfig) (cfg : SlaveConfig) :
    (newSlaveBackend clusterCfg cfg).fullShardList =
      clusterCfg.quarkchain.getGenesisShardIds.filter (chainMasksContain cfg.chainMaskList) := by
  simp only [newSlaveBackend, Buckets.foldl_append_filter, List.nil_append]
  rfl

/-- The master and the slaves agree on who runs a shard: once the pings check out, a
connection is listed under a shard exactly when it is the connection to a configured
slave whose own shard list has that shard. -/
theorem master_lists_running_slaves {cfg : ClusterConfig} {m : SlaveConnManager}
    (hm : initConnManager sendPing cfg = .ok m) (fullShardId : Nat) (conn : SlaveConnection) :
    conn ∈ m.getSlaveConnsById fullShardId ↔ ∃ slave ∈ cfg.slaveList,
      conn = newSlaveConn slave.chainMaskList slave.id ∧
        fullShardId ∈ (newSlaveBackend cfg slave).fullShardList := by
  rw [getSlaveConnsById_of_init hm]
  by_cases hid : fullShardId ∈ cfg.quarkchain.getGenesisShardIds
  · rw [if_pos hid]
    simp only [newSlaveBackend_fullShardList, List.mem_filter, List.mem_map, hid, true_and]
    constructor
    · rintro ⟨⟨slave, hslave, rfl⟩, hhas⟩
      exact ⟨slave, hslave, rfl, hhas⟩
    · rintro ⟨slave, hslave, rfl, hcontains⟩
      exact ⟨⟨slave, hslave, rfl⟩, hcontains⟩
  · rw [if_neg hid]
    simp only [newSlaveBackend_fullShardList, List.mem_filter, List.not_mem_nil, hid, false_and,
      and_false, exists_false]

/-- A slave that answers a ping with its own id and masks. -/
def honestPing (conn : SlaveConnection) : Except String (String × List ChainMask) :=
  .ok (conn.slaveID, conn.shardMaskList)

/-- Chains `0` and `1` of one shard each, and no slaves yet. -/
def twoChainConfig : ClusterConfig :=
  ⟨{ shards := (SortedMap.empty.insert 1 ⟨some 0⟩).insert 65537 ⟨some 0⟩,
     chainIdToShardSize := (SortedMap.empty.insert 0 1).insert 1 1, localFeeRate := 1,
     enableEvmTimeStamp := 0, defaultChainTokenID := 0, allowedTokenIDs := [0], networkID := 3,
     xShardGasDDOSFixRootHeight := 0, minMiningGasPrice := 0 }, []⟩

/-- Two default slaves for the two chains: the master lists under shard `65537` of
chain `1` the connection to a slave exactly when that slave runs the shard. -/
theorem master_lists_running_slaves_two_chains :
    ∃ m, initConnManager honestPing (updateSlaves twoChainConfig 2) = .ok m ∧
      ∀ conn, conn ∈ m.getSlaveConnsById 65537 ↔
        ∃ slave ∈ (updateSlaves twoChainConfig 2).slaveList,
          conn = newSlaveConn slave.chainMaskList slave.id ∧
            65537 ∈ (newSlaveBackend (updateSlaves twoChainConfig 2) slave).fullShardList :=
  ⟨_, rfl, @master_lists_running_slaves honestPing _ _ rfl 65537⟩

end Table

/-! ## Which slave runs a shard under the default masks -/

/-- Slave `i` of `2 ^ k` has the mask `i | 2 ^ k`, which contains the shards whose chain
id is `i` modulo `2 ^ k`. -/
theorem slaveConfigOf_two_pow_contains {k i : Nat} (hk : k < 32) (hi : i < 2 ^ k)
    (fullShardId : Nat) :
    chainMasksContain (slaveConfigOf (2 ^ k) i).chainMaskList fullShardId = true ↔
      (fullShardId >>> 16) % 2 ^ k = i := by
  have hor : i ||| 2 ^ k = 2 ^ k + i := by
    have hpack := Nat.two_pow_add_eq_or_of_lt hi 1
    rw [Nat.mul_one] at hpack
    rw [Nat.lor_comm, hpack]
  have hlt : 2 ^ k + i < 2 ^ (k + 1) := by
    rw [Nat.pow_succ]
    omega
  have hwidth : 2 ^ (k + 1) ≤ 2 ^ 32 := Nat.pow_le_pow_right (by decide) hk
  have hmask : (i ||| 2 ^ k) % 2 ^ 32 = 2 ^ k + i := by
    rw [hor, Nat.mod_eq_of_lt (by omega)]
  have hpos : 0 < 2 ^ k + i := Nat.lt_of_lt_of_le (Nat.two_pow_pos k) (Nat.le_add_right _ _)
  simp only [slaveConfigOf, hmask, newChainMask_of_pos hpos, Option.toList_some,
    chainMasksContain, List.any_cons, List.any_nil, Bool.or_false]
  rw [containFullShardId_iff_of_pos hpos (by omega),
    intLeftMostBit_eq (Nat.le_add_right _ _) hlt, Nat.add_sub_cancel, Nat.add_mod_left,
    Nat.mod_eq_of_lt hi]

/-- With a number of slaves that is not a power of two, every mask `i | numSlaves` keeps
the bits of `numSlaves` below its leading one, which are not all zero; so none contains
a chain whose id is zero below that bit. -/
theorem slaveConfigOf_not_contains {numSlaves i : Nat} (hn : numSlaves < 2 ^ 32)
    (hpow : ∀ k, numSlaves ≠ 2 ^ k) (hi : i < numSlaves) {fullShardId : Nat}
    (hchain : (fullShardId >>> 16) % 2 ^ numSlaves.log2 = 0) :
    chainMasksContain (slaveConfigOf numSlaves i).chainMaskList fullShardId = false := by
  have hn0 : numSlaves ≠ 0 := by omega
  have hlow : 2 ^ numSlaves.log2 ≤ numSlaves := Nat.log2_self_le hn0
  have hhigh : numSlaves < 2 ^ (numSlaves.log2 + 1) := Nat.lt_log2_self
  have hle : numSlaves ≤ i ||| numSlaves := Nat.right_le_or
  have hor : i ||| numSlaves < 2 ^ (numSlaves.log2 + 1) :=
    Nat.or_lt_two_pow (by omega) hhigh
  have hwidth : 2 ^ (numSlaves.log2 + 1) ≤ 2 ^ 32 :=
    Nat.pow_le_pow_right (by decide) ((Nat.log2_lt hn0).mpr hn)
  have hmask : (i ||| numSlaves) % 2 ^ 32 = i ||| numSlaves := Nat.mod_eq_of_lt (by omega)
  have hpos : 0 < i ||| numSlaves := by omega
  -- below the leading bit, `numSlaves` is `numSlaves - 2 ^ log2`, not zero
  have hrem : (i ||| numSlaves) % 2 ^ numSlaves.log2 ≠ 0 := by
    have hsub : numSlaves % 2 ^ numSlaves.log2 = numSlaves - 2 ^ numSlaves.log2 := by
      rw [Nat.mod_eq_sub_mod hlow, Nat.mod_eq_of_lt (by omega)]
    have hne := hpow numSlaves.log2
    rw [Nat.or_mod_two_pow, Ne, Nat.or_eq_zero_iff, hsub]
    omega
  have hcontains := containFullShardId_iff_of_pos hpos (by omega) fullShardId
  rw [intLeftMostBit_eq (Nat.le_trans hlow hle) hor, Nat.add_sub_cancel, hchain] at hcontains
  simp only [slaveConfigOf, hmask, newChainMask_of_pos hpos, Option.toList_some,
    chainMasksContain, List.any_cons, List.any_nil, Bool.or_false]
  exact Bool.eq_false_iff.mpr fun h => hrem (hcontains.mp h).symm

example : ((List.range 3).map (slaveConfigOf 3)).map SlaveConfig.chainMaskList =
    [[⟨3⟩], [⟨3⟩], [⟨3⟩]] := by
  decide

section Default

variable {sendPing : SlaveConnection → Except String (String × List ChainMask)}

@[simp] theorem updateSlaves_quarkchain (cfg : ClusterConfig) (numSlaves : Nat) :
    (updateSlaves cfg numSlaves).quarkchain = cfg.quarkchain := rfl

theorem updateSlaves_slaveList {cfg : ClusterConfig} {numSlaves : Nat} (h : 0 < numSlaves) :
    (updateSlaves cfg numSlaves).slaveList =
      (List.range numSlaves).map (slaveConfigOf numSlaves) := by
  simp [updateSlaves, Nat.pos_iff_ne_zero.mp h]

/-- With `2 ^ k` slaves from `updateSlaves`, every genesis shard is run by exactly one
slave, the one its chain id picks modulo `2 ^ k`, and the master sends the shard's
requests to it. -/
theorem updateSlaves_two_pow_routes {cfg : ClusterConfig} {k : Nat} (hk : k < 32)
    {m : SlaveConnManager} (hm : initConnManager sendPing (updateSlaves cfg (2 ^ k)) = .ok m)
    {fullShardId : Nat} (hid : fullShardId ∈ cfg.quarkchain.getGenesisShardIds) :
    let slave := slaveConfigOf (2 ^ k) ((fullShardId >>> 16) % 2 ^ k)
    m.getSlaveConnsById fullShardId = [newSlaveConn slave.chainMaskList slave.id] ∧
      m.getOneSlaveConnById fullShardId = some (newSlaveConn slave.chainMaskList slave.id) := by
  intro slave
  have hchain : (fullShardId >>> 16) % 2 ^ k ∈ List.range (2 ^ k) :=
    List.mem_range.mpr (Nat.mod_lt _ (Nat.two_pow_pos k))
  -- of the slaves `0, …, 2 ^ k - 1`, only the chain's residue runs the shard
  have hpick : (List.range (2 ^ k)).filter (fun i =>
      chainMasksContain (slaveConfigOf (2 ^ k) i).chainMaskList fullShardId) =
        [(fullShardId >>> 16) % 2 ^ k] := by
    rw [List.filter_congr fun i hi => Bool.eq_iff_iff.mpr
        ((slaveConfigOf_two_pow_contains hk (List.mem_range.mp hi) fullShardId).trans
          (eq_comm.trans decide_eq_true_iff.symm)),
      List.filter_eq, List.count_eq_one_of_mem List.nodup_range hchain, List.replicate_one]
  have hconns : m.getSlaveConnsById fullShardId = [newSlaveConn slave.chainMaskList slave.id] := by
    rw [getSlaveConnsById_of_init hm, updateSlaves_quarkchain, if_pos hid, updateSlaves_slaveList (Nat.two_pow_pos k),
      List.map_map, List.filter_map]
    exact congrArg (List.map _) hpick
  exact ⟨hconns, by rw [SlaveConnManager.getOneSlaveConnById_eq_head?, hconns, List.head?_cons]⟩

/-- Two default slaves: shard `65537` of chain `1` goes to slave `S3`, of mask `3`. -/
theorem updateSlaves_two_pow_routes_two_chains :
    ∃ m, initConnManager honestPing (updateSlaves twoChainConfig (2 ^ 1)) = .ok m ∧
      m.getSlaveConnsById 65537 = [newSlaveConn (slaveConfigOf (2 ^ 1) 1).chainMaskList
        (slaveConfigOf (2 ^ 1) 1).id] ∧
      m.getOneSlaveConnById 65537 = some (newSlaveConn (slaveConfigOf (2 ^ 1) 1).chainMaskList
        (slaveConfigOf (2 ^ 1) 1).id) :=
  ⟨_, rfl, @updateSlaves_two_pow_routes honestPing twoChainConfig 1 (by decide) _ rfl 65537
    (by decide)⟩

/-- With a number of slaves that is not a power of two, `updateSlaves` leaves the chains
that are zero below the leading bit of that number, chain `0` among them, to no slave:
no slave lists their shards, and the master has no slave to send their requests to. -/
theorem updateSlaves_leaves_chains_unrun {cfg : ClusterConfig} {numSlaves : Nat}
    (hpos : 0 < numSlaves) (hn : numSlaves < 2 ^ 32) (hpow : ∀ k, numSlaves ≠ 2 ^ k)
    {m : SlaveConnManager} (hm : initConnManager sendPing (updateSlaves cfg numSlaves) = .ok m)
    {fullShardId : Nat} (hchain : (fullShardId >>> 16) % 2 ^ numSlaves.log2 = 0) :
    (∀ slave ∈ (updateSlaves cfg numSlaves).slaveList,
      fullShardId ∉ (newSlaveBackend (updateSlaves cfg numSlaves) slave).fullShardList) ∧
    m.getOneSlaveConnById fullShardId = none := by
  have hunrun : ∀ slave ∈ (updateSlaves cfg numSlaves).slaveList,
      fullShardId ∉ (newSlaveBackend (updateSlaves cfg numSlaves) slave).fullShardList := by
    intro slave hslave
    rw [updateSlaves_slaveList hpos] at hslave
    obtain ⟨i, hi, rfl⟩ := List.mem_map.mp hslave
    simp [newSlaveBackend_fullShardList,
      slaveConfigOf_not_contains hn hpow (List.mem_range.mp hi) hchain]
  -- the master lists only slaves whose masks contain the shard, and there are none
  have hempty : m.getSlaveConnsById fullShardId = [] := by
    rw [getSlaveConnsById_of_init hm, updateSlaves_slaveList hpos]
    split
    · refine List.filter_eq_nil_iff.mpr fun conn hconn => ?_
      obtain ⟨slave, hslave, rfl⟩ := List.mem_map.mp hconn
      obtain ⟨i, hi, rfl⟩ := List.mem_map.mp hslave
      simp [SlaveConnection.hasShard, newSlaveConn,
        slaveConfigOf_not_contains hn hpow (List.mem_range.mp hi) hchain]
    · rfl
  exact ⟨hunrun, by rw [SlaveConnManager.getOneSlaveConnById_eq_head?, hempty, List.head?_nil]⟩

/-- Three default slaves: none runs shard `1` of chain `0`. -/
theorem updateSlaves_leaves_chains_unrun_three_slaves :
    ∃ m, initConnManager honestPing (updateSlaves twoChainConfig 3) = .ok m ∧
      (∀ slave ∈ (updateSlaves twoChainConfig 3).slaveList,
        1 ∉ (newSlaveBackend (updateSlaves twoChainConfig 3) slave).fullShardList) ∧
      m.getOneSlaveConnById 1 = none := by
  have hpow : ∀ k, 3 ≠ 2 ^ k := by
    intro k hk
    cases k with
    | zero => simp at hk
    | succ k =>
      rw [pow_succ] at hk
      omega
  exact ⟨_, rfl, @updateSlaves_leaves_chains_unrun honestPing twoChainConfig 3 (by decide)
    (by decide) hpow _ rfl 1 (by decide)⟩

end Default

end Cluster
