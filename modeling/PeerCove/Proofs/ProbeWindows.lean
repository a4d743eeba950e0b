/-
Module: PeerCove.Proofs.ProbeWindows
Layer: Proofs
Purpose: When two members probe each other that never get an answer: the retries of one, tick by
  tick, and for how long both probe at once.
Trusted boundary: `supervise` calls the manager every five seconds, without drift
Main exports: FailingMember, FailingMember.probes, FailingMember.probes_iff,
  FailingMember.overlaps_iff_offset
-/
import PeerCove.Library.PeriodicWindows
import PeerCove.Proofs.DirectPeers

namespace PeerCove

/-- A member that keeps failing to reach another one. -/
structure FailingMember where
  selfKey : PublicKey
  subnet : Ipv4Net
  other : PublicKey
  endpoint : SocketAddr
  /-- The time of the first tick. -/
  begins : Nat
  tick : Nat → DirectTick
  now_tick : ∀ count, (tick count).now = begins + SUPERVISE_INTERVAL * count
  /-- The ledger keeps asking for the other one, at one endpoint. -/
  wanted : ∀ count, ∃ ip,
    ((DirectNet.start selfKey subnet).wishes (tick count)).get? other = some (ip, endpoint)
  unanswered : ∀ count, (tick count).handshakeFresh other = false

namespace FailingMember

variable (member : FailingMember)

/-- After a tick. -/
def net : Nat → DirectNet
  | 0 => (DirectNet.start member.selfKey member.subnet).tick (member.tick 0)
  | count + 1 => (net count).tick (member.tick (count + 1))

/-- There is a probe on the interface at a time: the last tick before left one there. -/
def probes (time : Nat) : Prop :=
  member.begins ≤ time ∧ ∃ since quiet,
    ((member.net ((time - member.begins) / SUPERVISE_INTERVAL)).manager.states.get?
      member.other).map DirectState.phase = some (.trying since quiet)

/-- A tick puts a probe on the interface. -/
def StartsProbe (count : Nat) : Prop :=
  ∃ quiet, ((member.net count).manager.states.get? member.other).map DirectState.phase =
    some (.trying (member.tick count).now quiet)

/-- From the tick that starts a probe to the next one that does. -/
def RetryPeriod (first last : Nat) : Prop :=
  member.StartsProbe first ∧ member.StartsProbe last ∧ first < last ∧
    ∀ count, first < count → count < last → ¬ member.StartsProbe count

/-- In every retry period of one member from the start of the other on, both probe at once for
thirty seconds. -/
def Overlaps (one two : FailingMember) : Prop :=
  ∀ first last, one.RetryPeriod first last → two.begins ≤ (one.tick first).now →
    ∃ begins, (one.tick first).now ≤ begins ∧ begins + fromSecs 30 ≤ (one.tick last).now ∧
      ∀ time, begins ≤ time → time < begins + fromSecs 30 → one.probes time ∧ two.probes time

/-! ### Tick by tick -/

/-- Ten ticks with a probe, and twelve without: the other one at a step of a round. -/
structure Follows (round step : Nat) (side : DirectSide) : Prop where
  probing : step < 10 → ∃ state quiet, side.state = some state ∧
    state.endpoint = member.endpoint ∧
    state.phase = .trying (member.tick (22 * round)).now quiet
  cooling : 10 ≤ step → side.state = none ∧ side.cooldown = some {
    endpoint := member.endpoint
    at_ := (member.tick (22 * round + 10)).now }

variable {member} {round step : Nat} {side : DirectSide}

theorem elapsed (base count : Nat) :
    (member.tick (base + count)).now - (member.tick base).now = SUPERVISE_INTERVAL * count := by
  rw [member.now_tick, member.now_tick, Nat.mul_add]
  omega

/-- A probe is kept until its tenth tick, and given up then. -/
theorem act_probing {state : DirectState} {quiet : Bool} (known : side.state = some state)
    (same : state.endpoint = member.endpoint)
    (phase : state.phase = .trying (member.tick (22 * round)).now quiet) :
    side.act (member.tick (22 * round + (step + 1))).now false member.endpoint =
      if step + 1 < 10 then .keep else .fail := by
  unfold DirectSide.act
  simp only [known, same, phase, ne_eq, not_true_eq_false, if_false, Bool.false_eq_true, elapsed]
  by_cases more : step + 1 < 10
  · rw [if_pos more, if_neg]
    unfold SUPERVISE_INTERVAL TRYING_TIMEOUT fromSecs
    omega
  · rw [if_neg more, if_pos]
    unfold SUPERVISE_INTERVAL TRYING_TIMEOUT fromSecs
    omega

/-- Nothing is done until the twelfth tick after, which tries again. -/
theorem act_cooling (gone : side.state = none)
    (cooldown : side.cooldown = some {
      endpoint := member.endpoint
      at_ := (member.tick (22 * round + 10)).now }) :
    side.act (member.tick (22 * round + 10 + (step + 1))).now false member.endpoint =
      if step + 1 < 12 then .keep else .add := by
  unfold DirectSide.act
  simp only [gone, cooldown, true_and, elapsed]
  by_cases more : step + 1 < 12
  · rw [if_pos more, if_pos]
    unfold SUPERVISE_INTERVAL RETRY_INTERVAL fromSecs
    omega
  · rw [if_neg more, if_neg]
    unfold SUPERVISE_INTERVAL RETRY_INTERVAL fromSecs
    omega

/-- The failure is not forgotten before. -/
theorem sweep_cooling (cooldown : side.cooldown = some {
      endpoint := member.endpoint
      at_ := (member.tick (22 * round + 10)).now }) (early : step + 1 ≤ 12) :
    side.sweep (member.tick (22 * round + 10 + (step + 1))).now = side := by
  have recent : SUPERVISE_INTERVAL * (step + 1) < RETRY_INTERVAL * 2 := by
    unfold SUPERVISE_INTERVAL RETRY_INTERVAL fromSecs
    omega
  unfold DirectSide.sweep
  ext1
  · rfl
  · refine (Option.filter_eq_some_iff.mpr ⟨cooldown, decide_eq_true ?_⟩).trans cooldown.symm
    rw [elapsed]
    exact recent
  · rfl

theorem follows_tryAdd (ip : Ipv4Addr) (quiet : Bool) :
    member.Follows round 0
      (DirectSide.tryAdd (member.tick (22 * round)) ip member.endpoint quiet) where
  probing := fun _ => ⟨_, quiet, rfl, rfl, rfl⟩
  cooling := nofun

/-- A tick within a round. -/
theorem follows_step (ip : Ipv4Addr) (within : step + 1 < 22)
    (follows : member.Follows round step side) :
    member.Follows round (step + 1) (side.tick (member.tick (22 * round + (step + 1)))
      member.other (some (ip, member.endpoint))) := by
  unfold DirectSide.tick
  dsimp only
  rw [member.unanswered]
  by_cases early : step < 10
  · obtain ⟨state, quiet, known, same, phase⟩ := follows.probing early
    have swept : (side.sweep (member.tick (22 * round + (step + 1))).now).state = some state :=
      known
    rw [act_probing swept same phase]
    by_cases more : step + 1 < 10
    · rw [if_pos more]
      exact ⟨fun _ => ⟨state, quiet, known, same, phase⟩, fun late => absurd more (not_lt.mpr late)⟩
    · rw [if_neg more]
      have last : step = 9 := by omega
      subst last
      exact ⟨fun again => absurd again (by decide), fun _ => ⟨rfl, rfl⟩⟩
  · obtain ⟨after, rfl⟩ := Nat.exists_eq_add_of_le (not_lt.mp early)
    obtain ⟨gone, cooldown⟩ := follows.cooling (not_lt.mp early)
    rw [Nat.add_assoc 10 after 1, ← Nat.add_assoc (22 * round) 10 (after + 1),
      sweep_cooling cooldown (by omega), act_cooling gone cooldown, if_pos (by omega)]
    exact ⟨fun again => by omega, fun _ => ⟨gone, cooldown⟩⟩

/-- The tick that begins the next round. -/
theorem follows_round (ip : Ipv4Addr) (follows : member.Follows round 21 side) :
    member.Follows (round + 1) 0 (side.tick (member.tick (22 * (round + 1)))
      member.other (some (ip, member.endpoint))) := by
  have isNext : 22 * (round + 1) = 22 * round + 10 + (11 + 1) := by omega
  obtain ⟨gone, cooldown⟩ := follows.cooling (by decide)
  unfold DirectSide.tick
  dsimp only
  rw [member.unanswered, isNext, sweep_cooling cooldown le_rfl, act_cooling gone cooldown,
    if_neg (by decide), ← isNext]
  exact follows_tryAdd ip _

/-! ### All ticks -/

variable (member)

theorem config_net (count : Nat) : (member.net count).manager.selfKey = member.selfKey ∧
    (member.net count).manager.subnet = member.subnet := by
  induction count with
  | zero => exact DirectNet.config_tick (member.tick 0) _
  | succ count ih =>
      obtain ⟨key, subnet⟩ := DirectNet.config_tick (member.tick (count + 1)) (member.net count)
      exact ⟨key.trans ih.1, subnet.trans ih.2⟩

/-- Whom a tick wants does not depend on the ticks before. -/
theorem wishes_net (count : Nat) (tick : DirectTick) :
    (member.net count).wishes tick =
      (DirectNet.start member.selfKey member.subnet).wishes tick := by
  obtain ⟨key, subnet⟩ := member.config_net count
  unfold DirectNet.wishes DirectManager.desired DirectManager.candidate
  rw [key, subnet]
  rfl

theorem side_net (count : Nat) : ∃ ip, (member.net (count + 1)).side member.other =
    ((member.net count).side member.other).tick (member.tick (count + 1)) member.other
      (some (ip, member.endpoint)) := by
  obtain ⟨ip, wish⟩ := member.wanted (count + 1)
  refine ⟨ip, ?_⟩
  change ((member.net count).tick (member.tick (count + 1))).side member.other = _
  rw [DirectNet.side_tick, wishes_net, wish]

theorem follows_net (count : Nat) :
    member.Follows (count / 22) (count % 22) ((member.net count).side member.other) := by
  induction count with
  | zero =>
      obtain ⟨ip, wish⟩ := member.wanted 0
      have first : (member.net 0).side member.other =
          DirectSide.tryAdd (member.tick (22 * 0)) ip member.endpoint false := by
        change ((DirectNet.start _ _).tick (member.tick 0)).side member.other = _
        rw [DirectNet.side_tick, wish]
        rfl
      rw [first]
      exact follows_tryAdd ip false
  | succ count ih =>
      obtain ⟨ip, next⟩ := member.side_net count
      rw [next]
      by_cases within : count % 22 + 1 < 22
      · have parts : (count + 1) / 22 = count / 22 ∧ (count + 1) % 22 = count % 22 + 1 := by omega
        have sum : 22 * (count / 22) + (count % 22 + 1) = count + 1 := by omega
        rw [parts.1, parts.2, ← sum]
        exact follows_step ip within ih
      · have parts : (count + 1) / 22 = count / 22 + 1 ∧ (count + 1) % 22 = 0 := by omega
        have sum : 22 * (count / 22 + 1) = count + 1 := by omega
        have last : count % 22 = 21 := by omega
        rw [last] at ih
        rw [parts.1, parts.2, ← sum]
        exact follows_round ip ih

/-- Whether there is a probe after a tick, and since when. -/
theorem phase_net (count : Nat) : (∃ quiet,
      ((member.net count).manager.states.get? member.other).map DirectState.phase =
        some (.trying (member.tick (22 * (count / 22))).now quiet) ∧ count % 22 < 10) ∨
    ((member.net count).manager.states.get? member.other = none ∧ 10 ≤ count % 22) := by
  have follows := member.follows_net count
  rcases Nat.lt_or_ge (count % 22) 10 with early | late
  · obtain ⟨state, quiet, known, _, phase⟩ := follows.probing early
    refine .inl ⟨quiet, ?_, early⟩
    change ((member.net count).side member.other).state.map _ = _
    rw [known, ← phase]
    rfl
  · exact .inr ⟨(follows.cooling late).1, late⟩

theorem startsProbe_iff (count : Nat) : member.StartsProbe count ↔ count % 22 = 0 := by
  rcases member.phase_net count with ⟨quiet, phase, early⟩ | ⟨gone, late⟩
  · have starts : member.StartsProbe count ↔
        (member.tick (22 * (count / 22))).now = (member.tick count).now := by
      unfold StartsProbe
      rw [phase]
      simp only [Option.some.injEq, DirectPhase.trying.injEq, exists_and_left, exists_eq', and_true]
    rw [starts, member.now_tick, member.now_tick]
    unfold SUPERVISE_INTERVAL fromSecs
    omega
  · refine ⟨?_, fun zero => by omega⟩
    rintro ⟨quiet, phase⟩
    rw [gone] at phase
    cases phase

theorem retryPeriod_iff (first last : Nat) :
    member.RetryPeriod first last ↔ first % 22 = 0 ∧ last = first + 22 := by
  unfold RetryPeriod
  simp only [startsProbe_iff]
  constructor
  · rintro ⟨isFirst, isLast, before, between⟩
    have next := between (first + 22)
    omega
  · rintro ⟨isFirst, rfl⟩
    exact ⟨isFirst, by omega, by omega, fun count after before => by omega⟩

/-- Fifty seconds with a probe, and sixty without. -/
theorem probes_iff (time : Nat) :
    member.probes time ↔
      PeriodicWindows.IsOpen (fromSecs 110) (fromSecs 50) member.begins time := by
  refine and_congr_right (fun _ => ?_)
  generalize time - member.begins = since
  have window : since / SUPERVISE_INTERVAL % 22 < 10 ↔ since % fromSecs 110 < fromSecs 50 := by
    unfold SUPERVISE_INTERVAL fromSecs
    omega
  rw [← window]
  rcases member.phase_net (since / SUPERVISE_INTERVAL) with ⟨quiet, phase, early⟩ | ⟨gone, late⟩
  · exact ⟨fun _ => early, fun _ => ⟨_, quiet, phase⟩⟩
  · refine ⟨?_, fun early => absurd early (not_lt.mpr late)⟩
    rintro ⟨began, quiet, phase⟩
    rw [gone] at phase
    cases phase

/-! ### Two members -/

variable {one two : FailingMember}

/-- A retry period of one member, against the windows of both. -/
theorem overlaps_shared : one.Overlaps two ↔ ∀ round,
    two.begins ≤ one.begins + fromSecs 110 * round →
      PeriodicWindows.Shared (PeriodicWindows.IsOpen (fromSecs 110) (fromSecs 50) one.begins)
        (PeriodicWindows.IsOpen (fromSecs 110) (fromSecs 50) two.begins) (fromSecs 110)
        (fromSecs 30) (one.begins + fromSecs 110 * round) := by
  have times (round : Nat) : (one.tick (22 * round)).now = one.begins + fromSecs 110 * round ∧
      (one.tick (22 * round + 22)).now = one.begins + fromSecs 110 * round + fromSecs 110 := by
    rw [one.now_tick, one.now_tick]
    unfold SUPERVISE_INTERVAL fromSecs
    omega
  unfold Overlaps PeriodicWindows.Shared
  simp only [retryPeriod_iff, probes_iff]
  constructor
  · intro all round begun
    have shared := all (22 * round) (22 * round + 22) ⟨Nat.mul_mod_right 22 round, rfl⟩
    rw [(times round).1, (times round).2] at shared
    exact shared begun
  · rintro all first last ⟨isFirst, rfl⟩ begun
    obtain ⟨round, rfl⟩ := Nat.dvd_of_mod_eq_zero isFirst
    rw [(times round).1] at begun ⊢
    rw [(times round).2]
    exact all round begun

/-- A member whose ledger always asks for one other, which never answers. -/
def unheard (selfKey other : PublicKey) (differs : other ≠ selfKey) (begins : Nat) :
    FailingMember where
  selfKey := selfKey
  subnet := DirectNet.directSubnet
  other := other
  endpoint := .v4 0xC6336403#32 51820
  begins := begins
  tick := fun count => {
    now := begins + SUPERVISE_INTERVAL * count
    wall := begins + SUPERVISE_INTERVAL * count
    enabled := true
    received := some {
      distribution := { members := [{ DirectNet.bobEntry with publicKey := other }] }
      receivedAt := begins + SUPERVISE_INTERVAL * count }
    stats := [] }
  now_tick := fun _ => rfl
  wanted := by
    intro count
    have candidate : (DirectNet.start selfKey DirectNet.directSubnet).manager.candidate
        (begins + SUPERVISE_INTERVAL * count - (begins + SUPERVISE_INTERVAL * count))
        { DirectNet.bobEntry with publicKey := other } =
          some (other, DirectNet.bobEntry.ip, .v4 0xC6336403#32 51820) := by
      have young : fromSecs 0 + 0 ≤ MAX_ENDPOINT_AGE := by decide
      have inside : DirectNet.directSubnet.contains DirectNet.bobEntry.ip = true := by decide
      rw [Nat.sub_self]
      exact DirectNet.candidate_eq_some rfl rfl rfl rfl differs rfl young inside
    refine ⟨DirectNet.bobEntry.ip, ?_⟩
    unfold DirectNet.wishes DirectManager.desired
    simp only [if_true, List.filterMap_cons, List.filterMap_nil, candidate, List.foldl_cons,
      List.foldl_nil, Table.get?_insert_self]
  unanswered := fun _ => rfl

end FailingMember

end PeerCove
