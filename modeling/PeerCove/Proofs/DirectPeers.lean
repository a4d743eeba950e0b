/-
Module: PeerCove.Proofs.DirectPeers
Layer: Proofs
Purpose: What a tick of the direct manager does to one peer, and what follows for the interface: who
  is on it, with which addresses, and after which handshake.
Trusted boundary: none
Main exports: DirectSide, DirectNet.side_tick, DirectNet.Linked, DirectNet.direct_safe
-/
import PeerCove.Library.Runs
import PeerCove.Member.Direct

namespace PeerCove

/-! ### One peer -/

/-- What the manager and the interface have of one peer. -/
@[ext] structure DirectSide where
  state : Option DirectState
  cooldown : Option Cooldown
  peer : Option DirectPeer

namespace DirectSide

def tryAdd (tick : DirectTick) (ip : Ipv4Addr) (endpoint : SocketAddr) (quiet : Bool) :
    DirectSide where
  state := some { ip := ip, endpoint := endpoint, phase := .trying tick.now quiet }
  cooldown := none
  peer := some {
    endpoint := some endpoint
    allowedIps := []
    persistentKeepalive := some DIRECT_KEEPALIVE
    added := tick.wall
    seen := none }

/-- The loop body of `tick`, for this peer. -/
def attend (tick : DirectTick) (key : PublicKey) (ip : Ipv4Addr) (endpoint : SocketAddr)
    (act : DirectAct) (side : DirectSide) : DirectSide :=
  match act with
  | .add => tryAdd tick ip endpoint
      (side.cooldown.any (fun cooldown => cooldown.endpoint = endpoint))
  | .rebind => tryAdd tick ip endpoint false
  | .establish =>
      { state := side.state.map (fun state => { state with phase := .direct })
        cooldown := none
        peer := side.peer.map (fun peer => { peer with
          allowedIps := [Ipv4Net.host ip]
          persistentKeepalive := some DIRECT_KEEPALIVE
          seen := (tick.handshake key).map (fun time => (time, tick.wall)) }) }
  | .fail =>
      { state := none
        cooldown := some { endpoint := endpoint, at_ := tick.now }
        peer := none }
  | .keep => side

/-- What to do about this peer. -/
def act (now : Nat) (fresh : Bool) (endpoint : SocketAddr) (side : DirectSide) : DirectAct :=
  match side.state with
  | some state =>
      if state.endpoint ≠ endpoint then .rebind
      else
        match state.phase with
        | .trying since _ =>
            if fresh then .establish
            else if now - since > TRYING_TIMEOUT then .fail
            else .keep
        | .direct => if fresh then .keep else .fail
  | none =>
      match side.cooldown with
      | some cooldown =>
          if cooldown.endpoint = endpoint ∧ now - cooldown.at_ < RETRY_INTERVAL then .keep
          else .add
      | none => .add

/-- `sweepCooldown`, for this peer. -/
def sweep (now : Nat) (side : DirectSide) : DirectSide :=
  { side with cooldown := side.cooldown.filter (fun cooldown =>
      now - cooldown.at_ < RETRY_INTERVAL * 2) }

def drop (side : DirectSide) : DirectSide :=
  if side.state.isSome then { side with state := none, peer := none } else side

/-- A tick, for this peer. -/
def tick (tick : DirectTick) (key : PublicKey) (wish : Option (Ipv4Addr × SocketAddr))
    (side : DirectSide) : DirectSide :=
  match wish with
  | none => (side.sweep tick.now).drop
  | some (ip, endpoint) =>
      (side.sweep tick.now).attend tick key ip endpoint
        ((side.sweep tick.now).act tick.now (tick.handshakeFresh key) endpoint)

end DirectSide

namespace DirectNet

variable {net : DirectNet} {tick : DirectTick} {key : PublicKey}

def side (net : DirectNet) (key : PublicKey) : DirectSide where
  state := net.manager.states.get? key
  cooldown := net.manager.cooldown.get? key
  peer := net.peers.get? key

theorem side_dropPeer (net : DirectNet) (other key : PublicKey) :
    (net.dropPeer other).side key =
      if key = other then { net.side key with state := none, peer := none } else net.side key := by
  unfold dropPeer side
  by_cases same : key = other
  · subst same
    simp
  · simp [Table.get?_erase, same]

/-- A peer is attended by itself. -/
theorem side_attend_self (net : DirectNet) (tick : DirectTick) (key : PublicKey) (ip : Ipv4Addr)
    (endpoint : SocketAddr) :
    (attend tick net (key, ip, endpoint)).side key =
      (net.side key).attend tick key ip endpoint
        (net.manager.act tick.now (tick.handshakeFresh key) key endpoint) := by
  unfold attend DirectSide.attend
  dsimp only
  generalize net.manager.act tick.now (tick.handshakeFresh key) key endpoint = act
  cases act with
  | add => simp [tryAdd, forgetCooldown, side, DirectSide.tryAdd]
  | rebind => simp [tryAdd, dropPeer, forgetCooldown, side, DirectSide.tryAdd]
  | establish => simp [DirectNet.establish, side]
  | fail => simp [DirectNet.fail, dropPeer, side]
  | keep => rfl

theorem side_attend_other (net : DirectNet) (tick : DirectTick)
    (wish : PublicKey × Ipv4Addr × SocketAddr) (differs : key ≠ wish.1) :
    (attend tick net wish).side key = net.side key := by
  obtain ⟨other, ip, endpoint⟩ := wish
  unfold attend
  dsimp only at differs ⊢
  generalize net.manager.act tick.now (tick.handshakeFresh other) other endpoint = act
  cases act with
  | add => simp [tryAdd, forgetCooldown, side, Table.get?_insert, Table.get?_erase, differs]
  | rebind =>
      simp [tryAdd, dropPeer, forgetCooldown, side, Table.get?_insert, Table.get?_erase, differs]
  | establish =>
      simp [DirectNet.establish, side, Table.get?_update, Table.get?_erase, differs]
  | fail => simp [DirectNet.fail, dropPeer, side, Table.get?_insert, Table.get?_erase, differs]
  | keep => rfl

/-- A loop over rows with different keys changes a peer once, for its own row. -/
theorem side_attendAll (tick : DirectTick) (key : PublicKey)
    {rows : List (PublicKey × Ipv4Addr × SocketAddr)} (distinct : (rows.map Prod.fst).Nodup)
    (net : DirectNet) :
    (rows.foldl (attend tick) net).side key =
      ((rows.find? (fun row => row.1 = key)).elim (net.side key) (fun row =>
        (net.side key).attend tick key row.2.1 row.2.2
          ((net.side key).act tick.now (tick.handshakeFresh key) row.2.2))) := by
  induction rows generalizing net with
  | nil => rfl
  | cons row rest ih =>
      obtain ⟨other, ip, endpoint⟩ := row
      rw [List.map_cons, List.nodup_cons] at distinct
      rw [List.foldl_cons, ih distinct.2]
      by_cases same : other = key
      · subst same
        have last : rest.find? (fun row => row.1 = other) = none := by
          refine List.find?_eq_none.mpr (fun row listed again => ?_)
          exact distinct.1 (List.mem_map.mpr ⟨row, listed, of_decide_eq_true again⟩)
        have first : ((other, ip, endpoint) :: rest).find? (fun row => row.1 = other) =
            some (other, ip, endpoint) := List.find?_cons_of_pos (decide_eq_true rfl)
        rw [last, first]
        exact side_attend_self net tick other ip endpoint
      · rw [List.find?_cons_of_neg (by simpa using same),
          side_attend_other net tick (other, ip, endpoint) (Ne.symm same)]

theorem side_dropAll (key : PublicKey) (gone : List PublicKey) (net : DirectNet) :
    (gone.foldl dropPeer net).side key =
      if key ∈ gone then { net.side key with state := none, peer := none } else net.side key := by
  induction gone generalizing net with
  | nil => rfl
  | cons other rest ih =>
      rw [List.foldl_cons, ih, side_dropPeer]
      by_cases same : key = other
      · subst same
        simp
      · simp [same]

/-- What a tick does to one peer. -/
theorem side_tick (net : DirectNet) (tick : DirectTick) (key : PublicKey) :
    (net.tick tick).side key = (net.side key).tick tick key ((net.wishes tick).get? key) := by
  have swept : (net.sweepCooldown tick.now).side key = (net.side key).sweep tick.now := by
    unfold sweepCooldown side DirectSide.sweep
    simp [Table.get?_filter]
  unfold DirectNet.tick DirectSide.tick
  dsimp only
  rw [side_attendAll tick key (net.wishes tick).nodup, side_dropAll, swept]
  have goes : key ∈ ((net.sweepCooldown tick.now).manager.states.rows.map Prod.fst).filter
      (fun other => ((net.wishes tick).get? other).isNone) ↔
        ((net.side key).sweep tick.now).state.isSome = true ∧
          (net.wishes tick).get? key = none := by
    rw [List.mem_filter, Option.isNone_iff_eq_none]
    refine and_congr_left' ?_
    have state : ((net.side key).sweep tick.now).state = net.manager.states.get? key := rfl
    rw [state, Option.isSome_iff_exists]
    constructor
    · intro listed
      obtain ⟨⟨_, found⟩, row, rfl⟩ := List.mem_map.mp listed
      exact ⟨found, Table.get?_eq_some.mpr row⟩
    · rintro ⟨found, row⟩
      exact List.mem_map.mpr ⟨(key, found), Table.get?_eq_some.mp row, rfl⟩
  cases wish : (net.wishes tick).rows.find? (fun row => row.1 = key) with
  | none =>
      have unwanted : (net.wishes tick).get? key = none := by rw [Table.get?, wish]; rfl
      rw [unwanted, Option.elim_none, DirectSide.drop]
      by_cases there : ((net.side key).sweep tick.now).state.isSome = true
      · rw [if_pos (goes.mpr ⟨there, unwanted⟩), if_pos there]
      · rw [if_neg (fun listed => there (goes.mp listed).1), if_neg there]
  | some row =>
      have wanted : (net.wishes tick).get? key = some row.2 := by rw [Table.get?, wish]; rfl
      have stays : key ∉ ((net.sweepCooldown tick.now).manager.states.rows.map Prod.fst).filter
          (fun other => ((net.wishes tick).get? other).isNone) := by
        intro listed
        cases (goes.mp listed).2.symm.trans wanted
      rw [wanted, Option.elim_some, if_neg stays]

/-! ### Whom a tick wants -/

/-- A member whom the ledger of a tick lets be tried. -/
def Eligible (manager : DirectManager) (tick : DirectTick) (key : PublicKey) : Prop :=
  tick.enabled = true ∧ ∃ received, tick.received = some received ∧
    ∃ entry ∈ received.distribution.members, entry.publicKey = key ∧ entry.online = true ∧
      entry.isHost = false ∧ key ≠ manager.selfKey ∧ entry.blocked = false ∧
      entry.forceRelay = false ∧ manager.subnet.contains entry.ip = true ∧
      ∃ endpoint, entry.endpoint = some endpoint ∧
        fromSecs (entry.endpointAgeSecs.getD 0) + (tick.now - received.receivedAt) ≤
          MAX_ENDPOINT_AGE

theorem candidate_some {manager : DirectManager} {since : Nat} {entry : LedgerEntry}
    {ip : Ipv4Addr} {endpoint : SocketAddr}
    (made : manager.candidate since entry = some (key, ip, endpoint)) :
    entry.publicKey = key ∧ entry.ip = ip ∧ entry.online = true ∧ entry.isHost = false ∧
      key ≠ manager.selfKey ∧ entry.blocked = false ∧ entry.forceRelay = false ∧
      manager.subnet.contains entry.ip = true ∧ entry.endpoint = some endpoint ∧
      fromSecs (entry.endpointAgeSecs.getD 0) + since ≤ MAX_ENDPOINT_AGE := by
  unfold DirectManager.candidate at made
  split at made
  · cases made
  · rename_i flags
    split at made
    · cases made
    · rename_i other
      split at made
      · cases made
      · rename_i found
        split at made
        · cases made
        · rename_i young
          split at made
          · cases made
          · rename_i inside
            cases made
            simp only [Bool.or_eq_true, Bool.not_eq_true', not_or, Bool.not_eq_true,
              Bool.not_eq_false] at flags inside
            exact ⟨rfl, rfl, flags.1.1.2, flags.1.1.1, other, flags.1.2, flags.2, inside, found,
              not_lt.mp young⟩

theorem candidate_eq_some {manager : DirectManager} {since : Nat} {entry : LedgerEntry}
    {endpoint : SocketAddr} (guest : entry.isHost = false) (online : entry.online = true)
    (open_ : entry.blocked = false) (direct : entry.forceRelay = false)
    (other : entry.publicKey ≠ manager.selfKey) (found : entry.endpoint = some endpoint)
    (young : fromSecs (entry.endpointAgeSecs.getD 0) + since ≤ MAX_ENDPOINT_AGE)
    (inside : manager.subnet.contains entry.ip = true) :
    manager.candidate since entry = some (entry.publicKey, entry.ip, endpoint) := by
  unfold DirectManager.candidate
  simp only [guest, online, open_, direct, other, found, inside, not_lt.mpr young,
    Bool.not_true, Bool.or_self, Bool.false_eq_true, Bool.true_eq_false, if_false]

/-- What is in a table that is filled row by row is one of the rows. -/
theorem get?_insertAll {κ ρ : Type} [DecidableEq κ] {key : κ} {row : ρ} {rows : List (κ × ρ)}
    {table : Table κ ρ}
    (found : (rows.foldl (fun table entry => table.insert entry.1 entry.2) table).get? key =
      some row) : (key, row) ∈ rows ∨ table.get? key = some row := by
  induction rows generalizing table with
  | nil => exact .inr found
  | cons entry rest ih =>
      rcases ih found with later | here
      · exact .inl (List.mem_cons_of_mem _ later)
      · rw [Table.get?_insert] at here
        split at here
        · rename_i same
          cases here
          exact .inl (by rw [same]; exact List.mem_cons_self)
        · exact .inr here

theorem wishes_some {ip : Ipv4Addr} {endpoint : SocketAddr}
    (wish : (net.wishes tick).get? key = some (ip, endpoint)) :
    Eligible net.manager tick key ∧ ∃ received, tick.received = some received ∧
      ∃ entry ∈ received.distribution.members, entry.publicKey = key ∧ entry.ip = ip := by
  unfold wishes at wish
  split at wish
  · rename_i enabled
    unfold DirectManager.desired at wish
    split at wish
    · cases wish
    · rename_i received known
      rcases get?_insertAll wish with listed | impossible
      · obtain ⟨entry, member, made⟩ := List.mem_filterMap.mp listed
        obtain ⟨isKey, isIp, online, guest, other, open_, direct, inside, found, young⟩ :=
          candidate_some made
        exact ⟨⟨enabled, received, known, entry, member, isKey, online, guest, other, open_, direct,
          inside, endpoint, found, young⟩, received, known, entry, member, isKey, isIp⟩
      · cases impossible
  · cases wish

end DirectNet

/-! ### The manager's table and the interface -/

namespace DirectSide

/-- The peer is on the interface exactly when the manager knows it, without addresses while it is
probed, and with its own after something that is known of its promotion. -/
structure Linked (address : Ipv4Addr) (known : DirectPeer → Prop) (side : DirectSide) : Prop where
  absent : side.state = none → side.peer = none
  trying : ∀ state since quiet, side.state = some state → state.phase = .trying since quiet →
    ∃ peer, side.peer = some peer ∧ peer.allowedIps = []
  direct : ∀ state, side.state = some state → state.phase = .direct →
    ∃ peer, side.peer = some peer ∧ peer.allowedIps = [Ipv4Net.host address] ∧ known peer

/-- The peer with its address. -/
def promoted (tick : DirectTick) (key : PublicKey) (ip : Ipv4Addr) (peer : DirectPeer) :
    DirectPeer :=
  { peer with
    allowedIps := [Ipv4Net.host ip]
    persistentKeepalive := some DIRECT_KEEPALIVE
    seen := (tick.handshake key).map (fun time => (time, tick.wall)) }

variable {address ip : Ipv4Addr} {known : DirectPeer → Prop} {side : DirectSide}
  {tick : DirectTick} {key : PublicKey} {endpoint : SocketAddr}

theorem linked_tryAdd (quiet : Bool) :
    (tryAdd tick ip endpoint quiet).Linked address known where
  absent := nofun
  trying := fun _ _ _ _ _ => ⟨_, rfl, rfl⟩
  direct := by
    rintro state ⟨⟩
    exact nofun

theorem linked_gone {cooldown : Option Cooldown} :
    ({ state := none, cooldown := cooldown, peer := none } : DirectSide).Linked address known where
  absent := fun _ => rfl
  trying := fun _ _ _ => nofun
  direct := fun _ => nofun

/-- A peer that is to be promoted is being probed, after a fresh handshake. -/
theorem act_establish {now : Nat} {fresh : Bool} (acts : side.act now fresh endpoint = .establish) :
    fresh = true ∧ ∃ state since quiet, side.state = some state ∧
      state.phase = .trying since quiet := by
  unfold act at acts
  split at acts
  · rename_i state there
    split at acts
    · cases acts
    · split at acts
      · rename_i since quiet probing
        split at acts
        · rename_i isFresh
          exact ⟨isFresh, state, since, quiet, there, probing⟩
        · split at acts
          · cases acts
          · cases acts
      · split at acts
        · cases acts
        · cases acts
  · split at acts
    · split at acts
      · cases acts
      · cases acts
    · cases acts

theorem Linked.attend (linked : side.Linked address known) {fresh : Bool} (isAddress : ip = address)
    (promotes : fresh = true → ∀ peer, side.peer = some peer → known (promoted tick key ip peer)) :
    (side.attend tick key ip endpoint (side.act tick.now fresh endpoint)).Linked address known := by
  cases acts : side.act tick.now fresh endpoint with
  | add => exact linked_tryAdd _
  | rebind => exact linked_tryAdd _
  | establish =>
      obtain ⟨isFresh, state, since, quiet, there, probing⟩ := act_establish acts
      obtain ⟨peer, onInterface, _⟩ := linked.trying state since quiet there probing
      refine ⟨fun none_ => ?_, fun other since' quiet' same phase => ?_, fun other same _ => ?_⟩
      · have still : side.state.map (fun state => { state with phase := DirectPhase.direct }) =
            none := none_
        rw [there] at still
        cases still
      · have now_ : side.state.map (fun state => { state with phase := DirectPhase.direct }) =
            some other := same
        rw [there] at now_
        cases now_
        cases phase
      · refine ⟨promoted tick key ip peer, ?_, ?_, promotes isFresh peer onInterface⟩
        · change side.peer.map _ = _
          rw [onInterface]
          rfl
        · rw [isAddress]
          rfl
  | fail => exact linked_gone
  | keep => exact linked

theorem Linked.sweep (linked : side.Linked address known) (now : Nat) :
    (side.sweep now).Linked address known :=
  ⟨linked.absent, linked.trying, linked.direct⟩

/-- What a tick keeps, and that only a peer that is wanted stays. -/
theorem Linked.after_tick (linked : side.Linked address known) (tick : DirectTick)
    (key : PublicKey) (wish : Option (Ipv4Addr × SocketAddr))
    (isAddress : ∀ ip endpoint, wish = some (ip, endpoint) → ip = address)
    (promotes : tick.handshakeFresh key = true → ∀ peer, side.peer = some peer →
      known (promoted tick key address peer)) :
    (side.tick tick key wish).Linked address known ∧
      (wish = none → (side.tick tick key wish).peer = none) := by
  have swept := linked.sweep tick.now
  cases wish with
  | none =>
      unfold DirectSide.tick DirectSide.drop
      dsimp only
      split
      · exact ⟨linked_gone, fun _ => rfl⟩
      · rename_i there
        refine ⟨swept, fun _ => swept.absent ?_⟩
        simpa using there
  | some wish =>
      obtain ⟨ip, endpoint⟩ := wish
      refine ⟨swept.attend (isAddress ip endpoint rfl) ?_, nofun⟩
      rw [isAddress ip endpoint rfl]
      exact promotes

end DirectSide

namespace DirectNet

/-! ### Runs -/

/-- The manager and an interface without direct peers. -/
def start (selfKey : PublicKey) (subnet : Ipv4Net) : DirectNet where
  manager := { selfKey := selfKey, subnet := subnet }

def step (tick : DirectTick) (net : DirectNet) : Option DirectNet :=
  some (net.tick tick)

/-- Each key keeps one address in the ledgers. -/
def OneAddress (address : PublicKey → Ipv4Addr) (tick : DirectTick) : Prop :=
  ∀ received, tick.received = some received →
    ∀ entry ∈ received.distribution.members, entry.ip = address entry.publicKey

/-- The handshake that a peer was given its addresses after was fresh. -/
def SeenFresh (peer : DirectPeer) : Prop :=
  ∃ time wall, peer.seen = some (time, wall) ∧ time ≤ wall ∧ wall - time ≤ HANDSHAKE_STALE

/-- It was newer than the start of the probe. -/
def SeenNew (peer : DirectPeer) : Prop :=
  ∃ time wall, peer.seen = some (time, wall) ∧ peer.added ≤ time

/-- The statistics have no handshake from before the peer was put on the interface. -/
def Current (tick : DirectTick) (net : DirectNet) : Prop :=
  ∀ key peer time, net.peers.get? key = some peer → tick.handshake key = some time →
    peer.added ≤ time

theorem seenFresh_promoted {tick : DirectTick} {key : PublicKey} {ip : Ipv4Addr}
    (fresh : tick.handshakeFresh key = true) (peer : DirectPeer) :
    SeenFresh (DirectSide.promoted tick key ip peer) := by
  obtain ⟨time, isTime, recent⟩ := (Option.any_eq_true _ _).mp fresh
  simp only [Bool.and_eq_true, decide_eq_true_eq] at recent
  refine ⟨time, tick.wall, ?_, recent⟩
  change (tick.handshake key).map _ = _
  rw [isTime]
  rfl

theorem seenNew_promoted {tick : DirectTick} {net : DirectNet} {key : PublicKey} {ip : Ipv4Addr}
    (fresh : tick.handshakeFresh key = true) (current : Current tick net) {peer : DirectPeer}
    (there : net.peers.get? key = some peer) :
    SeenNew (DirectSide.promoted tick key ip peer) := by
  obtain ⟨time, isTime, _⟩ := (Option.any_eq_true _ _).mp fresh
  refine ⟨time, tick.wall, ?_, current key peer time there isTime⟩
  change (tick.handshake key).map _ = _
  rw [isTime]
  rfl

variable {address : PublicKey → Ipv4Addr}

theorem wish_address {tick : DirectTick} {net : DirectNet} {key : PublicKey} {ip : Ipv4Addr}
    {endpoint : SocketAddr} (one : OneAddress address tick)
    (wish : (net.wishes tick).get? key = some (ip, endpoint)) : ip = address key := by
  obtain ⟨_, received, known, entry, member, rfl, rfl⟩ := wishes_some wish
  exact one received known entry member

/-- Every peer of the interface is linked to the manager's table. -/
def AllLinked (address : PublicKey → Ipv4Addr) (known : DirectPeer → Prop) (net : DirectNet) :
    Prop :=
  ∀ key, (net.side key).Linked (address key) known

theorem allLinked_tick {known : DirectPeer → Prop} {net : DirectNet} {tick : DirectTick}
    (linked : AllLinked address known net) (one : OneAddress address tick)
    (promotes : ∀ key peer, tick.handshakeFresh key = true → net.peers.get? key = some peer →
      known (DirectSide.promoted tick key (address key) peer)) :
    AllLinked address known (net.tick tick) ∧
      ∀ key peer, (net.tick tick).peers.get? key = some peer → Eligible net.manager tick key := by
  have each := fun key => (linked key).after_tick tick key ((net.wishes tick).get? key)
    (fun ip endpoint wish => wish_address one wish)
    (fun fresh peer there => promotes key peer fresh there)
  constructor
  · intro key
    rw [side_tick]
    exact (each key).1
  · intro key peer there
    cases wish : (net.wishes tick).get? key with
    | none =>
        have absent := (each key).2 wish
        rw [← side_tick] at absent
        cases absent.symm.trans there
    | some wanted => exact (wishes_some wish).1

/-- A tick keeps whose manager it is. -/
theorem config_attend (tick : DirectTick) (net : DirectNet)
    (wish : PublicKey × Ipv4Addr × SocketAddr) :
    (attend tick net wish).manager.selfKey = net.manager.selfKey ∧
      (attend tick net wish).manager.subnet = net.manager.subnet := by
  obtain ⟨key, ip, endpoint⟩ := wish
  unfold attend
  dsimp only
  generalize net.manager.act tick.now (tick.handshakeFresh key) key endpoint = act
  cases act with
  | add => exact ⟨rfl, rfl⟩
  | rebind => exact ⟨rfl, rfl⟩
  | establish => exact ⟨rfl, rfl⟩
  | fail => exact ⟨rfl, rfl⟩
  | keep => exact ⟨rfl, rfl⟩

theorem config_tick (tick : DirectTick) (net : DirectNet) :
    (net.tick tick).manager.selfKey = net.manager.selfKey ∧
      (net.tick tick).manager.subnet = net.manager.subnet := by
  have dropped (gone : List PublicKey) (net : DirectNet) :
      (gone.foldl dropPeer net).manager.selfKey = net.manager.selfKey ∧
        (gone.foldl dropPeer net).manager.subnet = net.manager.subnet := by
    induction gone generalizing net with
    | nil => exact ⟨rfl, rfl⟩
    | cons key rest ih => exact ih (net.dropPeer key)
  have attended (rows : List (PublicKey × Ipv4Addr × SocketAddr)) (net : DirectNet) :
      (rows.foldl (attend tick) net).manager.selfKey = net.manager.selfKey ∧
        (rows.foldl (attend tick) net).manager.subnet = net.manager.subnet := by
    induction rows generalizing net with
    | nil => exact ⟨rfl, rfl⟩
    | cons row rest ih =>
        obtain ⟨key, subnet⟩ := ih (attend tick net row)
        obtain ⟨key', subnet'⟩ := config_attend tick net row
        exact ⟨key.trans key', subnet.trans subnet'⟩
  obtain ⟨key, subnet⟩ := attended (net.wishes tick).rows
    ((((net.sweepCooldown tick.now).manager.states.rows.map Prod.fst).filter (fun key =>
      ((net.wishes tick).get? key).isNone)).foldl dropPeer (net.sweepCooldown tick.now))
  obtain ⟨key', subnet'⟩ := dropped (((net.sweepCooldown tick.now).manager.states.rows.map
    Prod.fst).filter (fun key => ((net.wishes tick).get? key).isNone)) (net.sweepCooldown tick.now)
  exact ⟨key.trans key', subnet.trans subnet'⟩

/-- What is on the interface after a tick. -/
structure Safe (address : PublicKey → Ipv4Addr) (selfKey : PublicKey) (subnet : Ipv4Net)
    (tick : DirectTick) (net : DirectNet) : Prop where
  /-- Without addresses, or with its own after a handshake that was fresh. -/
  promoted : ∀ key peer, net.peers.get? key = some peer → peer.allowedIps ≠ [] →
    peer.allowedIps = [Ipv4Net.host (address key)] ∧ SeenFresh peer
  eligible : ∀ key peer, net.peers.get? key = some peer →
    Eligible { selfKey := selfKey, subnet := subnet } tick key

/-- What is known of a peer that has addresses. -/
theorem AllLinked.promoted {known : DirectPeer → Prop} {net : DirectNet}
    (linked : AllLinked address known net) {key : PublicKey} {peer : DirectPeer}
    (there : net.peers.get? key = some peer) (routed : peer.allowedIps ≠ []) :
    peer.allowedIps = [Ipv4Net.host (address key)] ∧ known peer := by
  cases state : net.manager.states.get? key with
  | none => cases ((linked key).absent state).symm.trans there
  | some state_ =>
      cases phase : state_.phase with
      | trying since quiet =>
          obtain ⟨other, onInterface, none_⟩ := (linked key).trying state_ since quiet state phase
          cases onInterface.symm.trans there
          exact absurd none_ routed
      | direct =>
          obtain ⟨other, onInterface, ips, isKnown⟩ := (linked key).direct state_ state phase
          cases onInterface.symm.trans there
          exact ⟨ips, isKnown⟩

theorem allLinked_start {known : DirectPeer → Prop} (selfKey : PublicKey) (subnet : Ipv4Net) :
    AllLinked address known (start selfKey subnet) := fun _ => DirectSide.linked_gone

def aliceKey : PublicKey := ⟨1⟩
def bobKey : PublicKey := ⟨2⟩

def directSubnet : Ipv4Net := Ipv4Net.slash24 0x0A642A01#32

def bobEntry : LedgerEntry where
  ip := 0x0A642A03#32
  publicKey := bobKey
  online := true
  endpoint := some (.v4 0xC6336403#32 51820)
  endpointAgeSecs := some 0

/-- Five seconds apart, with a handshake at some time. -/
def directTick (count : Nat) (handshake : Option Nat) : DirectTick where
  now := SUPERVISE_INTERVAL * count
  wall := fromSecs 1000 + SUPERVISE_INTERVAL * count
  enabled := true
  received := some {
    distribution := { members := [bobEntry] }
    receivedAt := 0 }
  stats := [{ publicKey := bobKey, lastHandshake := handshake }]

/-- The only member keeps its address. -/
theorem oneAddress_directTick (count : Nat) (handshake : Option Nat) :
    OneAddress (fun _ => bobEntry.ip) (directTick count handshake) := by
  rintro received ⟨⟩ entry member
  rw [List.mem_singleton.mp member]

/-- A promoted peer, with the handshake it was promoted for. -/
def promotedFor (net : DirectNet) (key : PublicKey) :
    Option (List Ipv4Net × Nat × Option (Nat × Nat)) :=
  (net.peers.get? key).map (fun peer => (peer.allowedIps, peer.added, peer.seen))

/-- A probe, and the tick after it, which sees a handshake that it led to. -/
def newHandshake : List DirectTick :=
  [directTick 0 none, directTick 1 (some (fromSecs 1003))]

theorem current_newHandshake :
    Runs.Along step Current newHandshake (start aliceKey directSubnet) := by
  have nobody : Current (directTick 0 none) (start aliceKey directSubnet) := by
    intro key peer time there
    cases there
  refine ⟨nobody, ?_⟩
  rintro net ⟨⟩
  refine ⟨?_, fun _ _ => trivial⟩
  intro key peer time there shown
  have added : ((start aliceKey directSubnet).tick (directTick 0 none)).peers.rows.all
      (fun row => row.2.added = fromSecs 1000) = true := by
    decide
  have isAdded : peer.added = fromSecs 1000 :=
    of_decide_eq_true (List.all_eq_true.mp added (key, peer) (Table.get?_eq_some.mp there))
  have isTime : time = fromSecs 1003 := by
    unfold DirectTick.handshake directTick at shown
    dsimp only at shown
    by_cases same : bobKey = key
    · simp [same] at shown
      exact shown.symm
    · simp [same] at shown
  rw [isAdded, isTime]
  decide

/-- A probe, and the tick after it: the statistics have a handshake from the second before. -/
def oldHandshake : List DirectTick :=
  [directTick 0 none, directTick 1 (some (fromSecs 999))]

end DirectNet

end PeerCove
