/-
Module: PeerCove.Proofs.PresenceLists
Layer: Proofs
Purpose: The lists of who is on a sheet: they are those of the memo service, when they show no member
  to itself, and when the lists the members keep are those the host would give them.
Trusted boundary: none
Main exports: presentOn_peers, presence_not_to_itself, presence_to_itself, presence_followed,
  presence_ghost
-/
import PeerCove.Host.Presence
import PeerCove.Proofs.ServiceRuns

namespace PeerCove

/-! ### Lists -/

section Lists

variable {instant : Nat} {sheetId owner : String} {excludeKey : Option String}
  {presence : Table String SheetPresenceEntry}

/-- Without the keys it is the list of the memo service. -/
theorem presentOn_peers (instant : Nat) (sheetId : String) (excludeKey : Option String)
    (presence : Table String SheetPresenceEntry) :
    (presentOn instant sheetId excludeKey presence).map Prod.snd =
      sheetPresenceFor instant sheetId excludeKey presence := by
  unfold presentOn sheetPresenceFor SheetPresenceEntry.expired
  rw [List.map_map]
  have same : (fun (key : String) (entry : SheetPresenceEntry) =>
      decide (entry.sheetId = sheetId) && decide (¬ (instant - entry.seen > SHEET_PRESENCE_TTL)) &&
        decide (excludeKey ≠ some key)) =
      fun key entry => decide (entry.sheetId = sheetId) &&
        decide (instant - entry.seen ≤ SHEET_PRESENCE_TTL) && decide (excludeKey ≠ some key) := by
    funext key entry
    simp
  simp only [decide_eq_true_eq] at same ⊢
  rw [same]
  rfl

theorem mem_presentOn {peer : SheetPresencePeer} :
    (owner, peer) ∈ presentOn instant sheetId excludeKey presence ↔
      ∃ entry, presence.get? owner = some entry ∧ entry.sheetId = sheetId ∧
        entry.expired instant = false ∧ excludeKey ≠ some owner ∧ peer = entry.peer := by
  unfold presentOn
  constructor
  · intro member
    obtain ⟨item, kept, same⟩ := List.mem_map.mp member
    obtain ⟨listed, keep⟩ := List.mem_filter.mp kept
    obtain ⟨rfl, rfl⟩ := Prod.mk.inj same
    simp only [Bool.and_eq_true, decide_eq_true_eq, Bool.not_eq_true] at keep
    exact ⟨item.2, Table.get?_eq_some.mpr listed, keep.1.1, keep.1.2, keep.2, rfl⟩
  · intro found
    obtain ⟨entry, found, there, lives, other, rfl⟩ := found
    refine List.mem_map.mpr ⟨(owner, entry), List.mem_filter.mpr ⟨Table.get?_eq_some.mp found, ?_⟩,
      rfl⟩
    simp [there, lives, other]

/-- Each actor is listed once. -/
theorem nodup_presentOn : ((presentOn instant sheetId excludeKey presence).map Prod.fst).Nodup := by
  unfold presentOn
  rw [List.map_map]
  exact (presence.filter _).nodup

end Lists

/-! ### The steps are those of the memo service -/

section Service

variable (system : PresenceSystem) (env : ServiceEnv)

theorem present_runPresence (origin : Origin) (actor : Actor) (op : SharedMemoOp) (sheetId : String)
    (row col : Nat) (now : env.instant = system.instant) :
    (system.present actor sheetId row col).service =
      (ServiceTask.runPresence env { origin := origin, actor := actor, op := op } sheetId row col
        system.service).1 := by
  unfold PresenceSystem.present ServiceTask.runPresence
  rw [now]

theorem sweep_run (now : env.instant = system.instant) :
    system.sweep.service = (ServiceTask.run env system.service .sweepSheetPresence).1 := by
  unfold PresenceSystem.sweep ServiceTask.run
  rw [now]
  simp only [SheetPresenceEntry.expired, decide_eq_true_eq]

/-- Who is sent an event, and which. -/
theorem event_sheetPresence (config : Config) (ip : Ipv4Addr) (sheetId : String)
    (peers : List SheetPresencePeer) (senderKey : Option String) :
    (Notice.sheetPresence sheetId peers senderKey).event config ip =
      if sendsTo config senderKey ip then some (.sheet (.presence sheetId peers)) else none := by
  unfold Notice.event sendsTo
  cases actorForIp config ip with
  | error message => rfl
  | ok actor => by_cases own : senderKey = some actor.key <;> simp [own]

/-- The list of a broadcast and the messages it sends. -/
theorem broadcast_run (origin : Origin) (rest : List Effect) (listing : Listing)
    (now : env.instant = system.instant) :
    ∃ task, (ServiceTask.run env system.service
        (.effects origin (.presencePeers listing.sheetId listing.senderKey listing.targets :: rest))).2 =
          task :: ServiceTask.andThen origin rest ∧
      (ServiceTask.run env system.service task).2 =
        ServiceTask.andThen .host ((system.broadcast listing).receivers.map (fun receiver =>
          .send
            { connection := receiver
              message := .memoEvent (.sheet (.presence listing.sheetId
                ((system.broadcast listing).peers.map Prod.snd)))
              asOf := system.service.sections })) := by
  refine ⟨_, rfl, ?_⟩
  unfold PresenceSystem.broadcast
  rw [presentOn_peers, ← now]
  simp only [ServiceTask.run, event_sheetPresence]
  congr 1
  induction listing.targets with
  | nil => rfl
  | cons target targets ih =>
      rw [List.filterMap_cons, List.filter_cons]
      split
      · rename_i skipped
        rw [if_neg (by simpa using skipped)]
        exact ih
      · rename_i effect sends
        by_cases hears : sendsTo system.service.config listing.senderKey target.ip = true
        · rw [if_pos hears] at sends ⊢
          rw [List.map_cons, ← ih, ← Option.some.inj sends]
        · rw [if_neg hears] at sends
          cases sends

end Service

/-! ### No member is shown to itself -/

/-- A list does not show the member with an address. -/
def Foreign (config : Config) (ip : Ipv4Addr) (peers : List OwnedPeer) : Prop :=
  ∀ actor, actorForIp config ip = .ok actor → ∀ item ∈ peers, item.1 ≠ actor.key

theorem sendsTo_ok {config : Config} {senderKey : Option String} {ip : Ipv4Addr} {actor : Actor}
    (known : actorForIp config ip = .ok actor) :
    sendsTo config senderKey ip = true ↔ senderKey ≠ some actor.key := by
  unfold sendsTo
  rw [known]
  simp

/-- Whether a list shows an actor is what the host's table says. -/
theorem isOn_iff {system : PresenceSystem} {key sheetId : String} :
    system.isOn key sheetId = true ↔
      ∃ item ∈ presentOn system.instant sheetId none system.service.sheetPresence, item.1 = key := by
  unfold PresenceSystem.isOn
  rw [Option.any_eq_true]
  constructor
  · intro h
    obtain ⟨entry, found, shown⟩ := h
    rw [Bool.and_eq_true, decide_eq_true_eq, decide_eq_true_eq, Bool.not_eq_true] at shown
    exact ⟨(key, entry.peer),
      mem_presentOn.mpr ⟨entry, found, shown.1, shown.2, (fun none => nomatch none), rfl⟩, rfl⟩
  · intro h
    obtain ⟨⟨owner, peer⟩, member, rfl⟩ := h
    obtain ⟨entry, found, there, lives, _, _⟩ := mem_presentOn.mp member
    exact ⟨entry, found, by simp [there, lives]⟩

namespace PresenceSystem

/-- Nothing sent, and nothing that waits to be sent, shows a member to itself. -/
structure SelfFree (system : PresenceSystem) : Prop where
  waiting : ∀ broadcast ∈ system.broadcasts, ∀ receiver ∈ broadcast.receivers,
    Foreign system.service.config receiver.ip broadcast.peers
  sent : ∀ event ∈ system.sent, Foreign system.service.config event.1.ip event.2.2

/-- The condition says exactly that a broadcast shows none of its receivers to itself. -/
theorem foreign_broadcast_iff {system : PresenceSystem} {place : Nat} {before after : List Listing}
    {listing : Listing}
    (found : Tasks.at? place system.lookedUp = some (before, listing, after)) :
    NotToItself (.list place) system ↔
      ∀ receiver ∈ (system.broadcast listing).receivers,
        Foreign system.service.config receiver.ip (system.broadcast listing).peers := by
  constructor
  · intro fair receiver member actor known item listed same
    obtain ⟨target, sends⟩ := List.mem_filter.mp member
    have absent := fair _ found receiver target actor (by rw [known]; rfl)
      ((sendsTo_ok known).mp sends)
    rw [isOn_iff.mpr ⟨item, listed, same⟩] at absent
    cases absent
  · intro foreign other at' target listed actor known' differ
    obtain rfl := Option.some.inj (found.symm.trans at')
    have known : actorForIp system.service.config target.ip = .ok actor := by
      cases looked : actorForIp system.service.config target.ip with
      | error message =>
          rw [looked] at known'
          cases known'
      | ok other =>
          rw [looked] at known'
          cases known'
          rfl
    rw [Bool.eq_false_iff]
    intro shown
    obtain ⟨item, member, same⟩ := isOn_iff.mp shown
    have sends := (sendsTo_ok known).mpr differ
    exact foreign target (List.mem_filter.mpr ⟨listed, sends⟩) actor known item member same

theorem SelfFree.step {event : PresenceEvent} {system next : PresenceSystem}
    (before : system.SelfFree) (fair : NotToItself event system)
    (happens : presenceStep event system = some next) : next.SelfFree := by
  cases event with
  | list place =>
      obtain ⟨⟨front, listing, rest⟩, found, rfl⟩ := Option.map_eq_some_iff.mp happens
      refine ⟨?_, before.sent⟩
      intro broadcast member
      rcases List.mem_append.mp member with earlier | new
      · exact before.waiting broadcast earlier
      · obtain rfl := List.mem_singleton.mp new
        exact (foreign_broadcast_iff found).mp fair
  | send place =>
      simp only [presenceStep] at happens
      split at happens
      · rename_i front sheetId peers receiver receivers rest found
        cases happens
        have split := Tasks.at?_some found
        have old : ⟨sheetId, peers, receiver :: receivers⟩ ∈ system.broadcasts := by
          rw [split]
          exact List.mem_append_right _ List.mem_cons_self
        refine ⟨?_, ?_⟩
        · intro broadcast member
          rcases List.mem_append.mp member with earlier | later
          · exact before.waiting broadcast (split ▸ List.mem_append_left _ earlier)
          · rcases List.mem_cons.mp later with rfl | later
            · exact fun other listed => before.waiting _ old other (List.mem_cons_of_mem _ listed)
            · exact before.waiting broadcast
                (split ▸ List.mem_append_right _ (List.mem_cons_of_mem _ later))
        · intro event member
          rcases List.mem_append.mp member with earlier | new
          · exact before.sent event earlier
          · obtain rfl := List.mem_singleton.mp new
            exact before.waiting _ old receiver List.mem_cons_self
      · cases happens
  | lookUp place =>
      obtain ⟨⟨front, announcement, rest⟩, found, rfl⟩ := Option.map_eq_some_iff.mp happens
      exact ⟨before.waiting, before.sent⟩
  | deliver ip =>
      simp only [presenceStep] at happens
      split at happens
      · cases happens
      · cases happens
        exact ⟨before.waiting, before.sent⟩
  | connect ip capabilities kept =>
      cases happens
      exact ⟨before.waiting, before.sent⟩
  | disconnect connection =>
      cases happens
      exact ⟨before.waiting, before.sent⟩
  | presence actor sheetId row col =>
      cases happens
      exact ⟨before.waiting, before.sent⟩
  | sweep =>
      cases happens
      exact ⟨before.waiting, before.sent⟩
  | wait milliseconds =>
      cases happens
      exact ⟨before.waiting, before.sent⟩

end PresenceSystem

/-- From every table of selections, in every run in which no list is made for a member that is on
the sheet itself, no event shows a member to itself. -/
theorem presence_not_to_itself {service : MemoService} {events : List PresenceEvent}
    {final : PresenceSystem} (fair : Runs.Along presenceStep NotToItself events (.start service))
    (reached : Runs.run presenceStep events (.start service) = some final) :
    ∀ event ∈ final.sent, Foreign final.service.config event.1.ip event.2.2 := by
  have start : (PresenceSystem.start service).SelfFree :=
    ⟨fun _ member => (nomatch member), fun _ member => (nomatch member)⟩
  exact (Runs.run_invariant PresenceSystem.SelfFree
    (fun _ _ _ before fair happens => before.step fair happens) start fair reached).sent

/-- The key and the cell of a selection. -/
def selection (key name : String) (row col : Nat) : OwnedPeer :=
  (key, { name := name, row := row, col := col })

/-- Members with the sheets they select a cell in, one after the other; each list is sent to the
other one. -/
def twoSelections (one two : String) : List PresenceEvent :=
  [.connect aliceIp ["shared_memo"] (fun _ => []), .connect bobIp ["shared_memo"] (fun _ => []),
    .presence (.member "a" "Alice") one 1 1, .lookUp 0, .list 0, .send 0,
    .presence (.member "b" "Bob") two 2 2, .lookUp 0, .list 0, .send 1]

/-- Alice and Bob in different sheets. -/
theorem presence_not_to_itself_apart :
    ∃ final, Runs.run presenceStep (twoSelections "one" "two")
        (.start (.new twoMembers SharedDb.empty)) = some final ∧
      (∀ event ∈ final.sent, Foreign final.service.config event.1.ip event.2.2) ∧
      final.sent =
        [(bobConnection, "one", [selection "a" "Alice" 1 1]),
          (aliceConnection, "two", [selection "b" "Bob" 2 2])] := by
  have fair : Runs.Along presenceStep NotToItself (twoSelections "one" "two")
      (.start (.new twoMembers SharedDb.empty)) := by decide
  exact ⟨_, rfl, presence_not_to_itself fair rfl, rfl⟩

/-- Alice and Bob in one sheet: when Bob has selected a cell, Alice is shown herself. -/
theorem presence_to_itself :
    ¬ ∀ (service : MemoService) (events : List PresenceEvent) final,
      Runs.run presenceStep events (.start service) = some final →
        ∀ event ∈ final.sent, Foreign final.service.config event.1.ip event.2.2 := by
  intro never
  have wrong := never (.new twoMembers SharedDb.empty) (twoSelections "one" "one") _ rfl
    (aliceConnection, "one", [selection "a" "Alice" 1 1, selection "b" "Bob" 2 2])
    (List.mem_cons_of_mem _ List.mem_cons_self) ((Actor.member "a" "Alice").withAdmin false) rfl
    (selection "a" "Alice" 1 1) List.mem_cons_self
  exact wrong rfl

/-! ### The lists that members keep -/

theorem mem_memoConnections {service : MemoService} {connection : Connection} :
    connection ∈ service.memoConnections ↔
      ∃ info, service.connections.get? connection.ip = some info ∧
        info.connectionId = connection.connectionId ∧
        info.capabilities.contains "shared_memo" = true := by
  unfold MemoService.memoConnections
  constructor
  · intro member
    obtain ⟨⟨ip, info⟩, kept, rfl⟩ := List.mem_map.mp member
    obtain ⟨listed, capable⟩ := List.mem_filter.mp kept
    exact ⟨info, Table.get?_eq_some.mpr listed, rfl, capable⟩
  · intro found
    obtain ⟨info, found, same, capable⟩ := found
    refine List.mem_map.mpr ⟨(connection.ip, info),
      List.mem_filter.mpr ⟨Table.get?_eq_some.mp found, capable⟩, ?_⟩
    exact congrArg (Connection.mk connection.ip) same

/-- The lists of a broadcast that a connection will still be sent. -/
def Broadcast.coming (connection : Connection) (broadcast : Broadcast) : List PresenceList :=
  (broadcast.receivers.filter (· = connection)).map (fun _ => (broadcast.sheetId, broadcast.peers))

namespace PresenceSystem

/-- The lists a connection's member has yet to read. -/
def coming (system : PresenceSystem) (connection : Connection) : List PresenceList :=
  (system.members connection.ip).unread ++
    system.broadcasts.flatMap (Broadcast.coming connection)

/-- What the member will keep once it has read them. -/
def willKeep (system : PresenceSystem) (connection : Connection) : String → List OwnedPeer :=
  LastWrite.overwriteAll (system.coming connection) (system.members connection.ip).lists

/-- A list of a sheet has not been made, and will be sent to a connection of the actor with a key. -/
def Awaits (system : PresenceSystem) (key : String) (connection : Connection) (sheetId : String) :
    Prop :=
  (∃ announcement ∈ system.announced,
      announcement.sheetId = sheetId ∧ announcement.senderKey ≠ some key) ∨
    ∃ listing ∈ system.lookedUp,
      listing.sheetId = sheetId ∧ listing.senderKey ≠ some key ∧ connection ∈ listing.targets

/-- Every connected member will be sent a new list of a sheet, or will keep one that shows it the
others. -/
structure Tracked (system : PresenceSystem) : Prop where
  shown : ∀ connection ∈ system.service.memoConnections, ∀ actor,
    actorForIp system.service.config connection.ip = .ok actor → ∀ sheetId,
      system.Awaits actor.key connection sheetId ∨
        system.Shows actor.key sheetId (system.willKeep connection sheetId)
  receivers : ∀ broadcast ∈ system.broadcasts, ∀ receiver ∈ broadcast.receivers,
    receiver.connectionId < system.service.nextConnectionId
  targets : ∀ listing ∈ system.lookedUp, ∀ target ∈ listing.targets,
    target.connectionId < system.service.nextConnectionId
  connected : ∀ ip info, system.service.connections.get? ip = some info →
    info.connectionId < system.service.nextConnectionId

variable {system next : PresenceSystem} {key sheetId : String} {list : List OwnedPeer}

/-- A list goes on showing the others when their selections on the sheet stay, and none is new. -/
theorem Shows.transfer (shows : system.Shows key sheetId list)
    (stay : ∀ owner entry, system.service.sheetPresence.get? owner = some entry →
      entry.sheetId = sheetId → owner ≠ key →
        next.service.sheetPresence.get? owner = some entry)
    (old : ∀ owner entry, next.service.sheetPresence.get? owner = some entry →
      entry.sheetId = sheetId → owner ≠ key → entry.expired next.instant = false →
        system.service.sheetPresence.get? owner = some entry ∧
          entry.expired system.instant = false) :
    next.Shows key sheetId list where
  nodup := shows.nodup
  others := by
    intro item member
    obtain ⟨differ, entry, found, there, same⟩ := shows.others item member
    exact ⟨differ, entry, stay item.1 entry found there differ, there, same⟩
  complete := by
    intro owner entry found there differ lives
    obtain ⟨found, lives⟩ := old owner entry found there differ lives
    exact shows.complete owner entry found there differ lives

/-- What happens elsewhere. -/
theorem Shows.elsewhere (shows : system.Shows key sheetId list)
    (presence : next.service.sheetPresence = system.service.sheetPresence)
    (instant : next.instant = system.instant) : next.Shows key sheetId list := by
  refine shows.transfer ?_ ?_
  · intro owner entry found _ _
    rw [presence]
    exact found
  · intro owner entry found _ _ lives
    rw [presence] at found
    rw [instant] at lives
    exact ⟨found, lives⟩

/-- A list made now shows the others to a member that is not on the sheet. -/
theorem shows_presentOn (absent : system.isOn key sheetId = false) :
    system.Shows key sheetId
      (presentOn system.instant sheetId none system.service.sheetPresence) where
  nodup := nodup_presentOn
  others := by
    intro item member
    refine ⟨?_, ?_⟩
    · intro same
      rw [isOn_iff.mpr ⟨item, member, same⟩] at absent
      cases absent
    · obtain ⟨entry, found, there, _, _, same⟩ := mem_presentOn.mp member
      exact ⟨entry, found, there, same⟩
  complete := by
    intro owner entry found there _ lives
    exact mem_presentOn.mpr ⟨entry, found, there, lives, (fun none => nomatch none), rfl⟩

/-! ### One step each -/

/-- Time only makes selections expire. -/
theorem Tracked.wait (tracked : system.Tracked) (milliseconds : Nat) :
    ({ system with instant := system.instant + milliseconds } : PresenceSystem).Tracked where
  shown := by
    intro connection member actor known sheetId
    refine (tracked.shown connection member actor known sheetId).imp (fun waits => waits) ?_
    intro shows
    refine shows.transfer (fun _ _ found _ _ => found) ?_
    intro owner entry found _ _ lives
    refine ⟨found, ?_⟩
    unfold SheetPresenceEntry.expired at lives ⊢
    simp only [decide_eq_false_iff_not] at lives ⊢
    omega
  receivers := tracked.receivers
  targets := tracked.targets
  connected := tracked.connected

/-- A selection is announced on its sheet, and no list of another sheet has shown it. -/
theorem Tracked.present (tracked : system.Tracked) {actor : Actor} {sheetId : String} {row col : Nat}
    (fair : Steady (.presence actor sheetId row col) system) :
    (system.present actor sheetId row col).Tracked where
  shown := by
    intro connection member receiver known other
    by_cases own : receiver.key = actor.key
    · refine (tracked.shown connection member receiver known other).imp ?_ ?_
      · intro waits
        refine waits.imp_left ?_
        intro found
        obtain ⟨announcement, listed, there⟩ := found
        exact ⟨announcement, List.mem_append_left _ listed, there⟩
      · intro shows
        -- the member's own selection is on none of its lists
        refine shows.transfer ?_ ?_
        · intro owner entry found _ differ
          exact (Table.get?_insert_of_ne _ (own ▸ differ) _).trans found
        · intro owner entry found _ differ lives
          exact ⟨(Table.get?_insert_of_ne _ (own ▸ differ) _).symm.trans found, lives⟩
    · by_cases same : other = sheetId
      · refine Or.inl (Or.inl ⟨_, List.mem_append_right _ (List.mem_singleton_self _), same.symm, ?_⟩)
        intro sender
        exact own (Option.some.inj sender).symm
      · refine (tracked.shown connection member receiver known other).imp ?_ ?_
        · intro waits
          refine waits.imp_left ?_
          intro found
          obtain ⟨announcement, listed, there⟩ := found
          exact ⟨announcement, List.mem_append_left _ listed, there⟩
        · intro shows
          -- the selection was on no other sheet before
          refine shows.transfer ?_ ?_
          · intro owner entry found there _
            have differ : owner ≠ actor.key := by
              intro moved
              rw [moved] at found
              exact same (there.symm.trans (fair entry found))
            exact (Table.get?_insert_of_ne _ differ _).trans found
          · intro owner entry found there _ lives
            have differ : owner ≠ actor.key := by
              intro moved
              rw [moved] at found
              have now := (Table.get?_insert_self _ actor.key _).symm.trans found
              rw [← Option.some.inj now] at there
              exact same there.symm
            exact ⟨(Table.get?_insert_of_ne _ differ _).symm.trans found, lives⟩
  receivers := tracked.receivers
  targets := tracked.targets
  connected := tracked.connected

theorem mem_stalePresence {instant : Nat} {presence : Table String SheetPresenceEntry}
    {owner : String} {entry : SheetPresenceEntry} (found : presence.get? owner = some entry)
    (expired : entry.expired instant = true) :
    entry.sheetId ∈ ServiceTask.stalePresence instant presence := by
  unfold ServiceTask.stalePresence
  rw [List.mem_dedup]
  exact List.mem_map.mpr ⟨(owner, entry),
    List.mem_filter.mpr ⟨Table.get?_eq_some.mp found, expired⟩, rfl⟩

/-- The sheets from which selections are swept are announced to everybody. -/
theorem Tracked.sweep (tracked : system.Tracked) : system.sweep.Tracked where
  shown := by
    intro connection member actor known sheetId
    by_cases stale : sheetId ∈
        ServiceTask.stalePresence system.instant system.service.sheetPresence
    · refine Or.inl (Or.inl ⟨⟨sheetId, none⟩, ?_, rfl, fun sender => nomatch sender⟩)
      exact List.mem_append_right _ (List.mem_map.mpr ⟨sheetId, stale, rfl⟩)
    · refine (tracked.shown connection member actor known sheetId).imp ?_ ?_
      · intro waits
        refine waits.imp_left ?_
        intro found
        obtain ⟨announcement, listed, there⟩ := found
        exact ⟨announcement, List.mem_append_left _ listed, there⟩
      · intro shows
        refine shows.transfer ?_ ?_
        · intro owner entry found there _
          have lives : entry.expired system.instant = false := by
            rw [Bool.eq_false_iff]
            intro expired
            exact stale (there ▸ mem_stalePresence found expired)
          exact (Table.get?_filter _ _ _).trans (by rw [found]; simp [lives])
        · intro owner entry found _ _ lives
          have kept := (Table.get?_filter _ _ _).symm.trans found
          exact ⟨(Option.filter_eq_some_iff.mp kept).1, lives⟩
  receivers := tracked.receivers
  targets := tracked.targets
  connected := tracked.connected

/-- The connections that were looked up include every connection there is. -/
theorem Tracked.lookUp (tracked : system.Tracked) {before after : List Announcement}
    {announcement : Announcement} (split : system.announced = before ++ announcement :: after) :
    ({ system with
        announced := before ++ after
        lookedUp := system.lookedUp ++ system.lookUp announcement } : PresenceSystem).Tracked where
  shown := by
    intro connection member actor known sheetId
    refine (tracked.shown connection member actor known sheetId).imp ?_
      (fun shows => shows.elsewhere rfl rfl)
    intro waits
    rcases waits with ⟨other, listed, there, heard⟩ | ⟨listing, listed, there⟩
    · rw [split] at listed
      rcases List.mem_append.mp listed with earlier | later
      · exact Or.inl ⟨other, List.mem_append_left _ earlier, there, heard⟩
      rcases List.mem_cons.mp later with rfl | later
      · refine Or.inr ⟨{ toAnnouncement := other, targets := system.service.memoConnections },
          List.mem_append_right _ ?_, there, heard, member⟩
        unfold PresenceSystem.lookUp
        rw [if_neg (List.ne_nil_of_mem member)]
        exact List.mem_singleton_self _
      · exact Or.inl ⟨other, List.mem_append_right _ later, there, heard⟩
    · exact Or.inr ⟨listing, List.mem_append_left _ listed, there⟩
  receivers := tracked.receivers
  targets := by
    intro listing listed target member
    rcases List.mem_append.mp listed with earlier | new
    · exact tracked.targets listing earlier target member
    · unfold PresenceSystem.lookUp at new
      split at new
      · cases new
      · obtain rfl := List.mem_singleton.mp new
        obtain ⟨info, found, same, _⟩ := mem_memoConnections.mp member
        exact same ▸ tracked.connected target.ip info found
  connected := tracked.connected

theorem coming_of_not_mem {connection : Connection} {broadcast : Broadcast}
    (absent : connection ∉ broadcast.receivers) : broadcast.coming connection = [] := by
  unfold Broadcast.coming
  rw [List.map_eq_nil_iff, List.filter_eq_nil_iff]
  intro receiver member
  simp only [decide_eq_true_eq]
  intro same
  exact absent (same ▸ member)

/-- What one broadcast leaves with a member it is sent to. -/
theorem overwriteAll_coming {connection : Connection} {broadcast : Broadcast}
    (member : connection ∈ broadcast.receivers) (lists : String → List OwnedPeer) :
    LastWrite.overwriteAll (broadcast.coming connection) lists =
      LastWrite.overwrite lists (broadcast.sheetId, broadcast.peers) := by
  unfold Broadcast.coming
  apply LastWrite.overwriteAll_same
  · intro other listed
    obtain ⟨_, _, same⟩ := List.mem_map.mp listed
    exact same.symm
  · rw [Ne, List.map_eq_nil_iff, List.filter_eq_nil_iff]
    intro none
    exact none connection member (by simp)

/-- What else is awaited when one list is made. -/
theorem awaits_made {before after : List Listing} {listing : Listing} {place : Nat}
    {connection : Connection} {broadcasts : List Broadcast}
    (found : Tasks.at? place system.lookedUp = some (before, listing, after))
    (other : listing.sheetId = sheetId → listing.senderKey ≠ some key →
      connection ∉ listing.targets)
    (awaits : system.Awaits key connection sheetId) :
    ({ system with lookedUp := before ++ after, broadcasts := broadcasts } :
      PresenceSystem).Awaits key connection sheetId := by
  refine awaits.imp_right ?_
  intro waiting
  obtain ⟨candidate, listed, same, heard, target⟩ := waiting
  rw [Tasks.at?_some found] at listed
  rcases List.mem_append.mp listed with earlier | later
  · exact ⟨candidate, List.mem_append_left _ earlier, same, heard, target⟩
  · rcases List.mem_cons.mp later with rfl | later
    · exact absurd target (other same heard)
    · exact ⟨candidate, List.mem_append_right _ later, same, heard, target⟩

/-- A list that was made now will be kept by those it is sent to. -/
theorem Tracked.made (tracked : system.Tracked) {before after : List Listing} {listing : Listing}
    {place : Nat} (found : Tasks.at? place system.lookedUp = some (before, listing, after))
    (fair : NotToItself (.list place) system) :
    ({ system with
        lookedUp := before ++ after
        broadcasts := system.broadcasts ++ [system.broadcast listing] } :
      PresenceSystem).Tracked where
  shown := by
    intro connection member actor known sheetId
    have keeps : ({ system with
        lookedUp := before ++ after
        broadcasts := system.broadcasts ++ [system.broadcast listing] } :
      PresenceSystem).willKeep connection =
        LastWrite.overwriteAll ((system.broadcast listing).coming connection)
          (system.willKeep connection) := by
      unfold willKeep coming
      rw [List.flatMap_append, List.flatMap_singleton, ← List.append_assoc,
        LastWrite.overwriteAll_append]
    rw [keeps]
    by_cases receives : connection ∈ (system.broadcast listing).receivers
    · rw [overwriteAll_coming receives]
      obtain ⟨target, sends⟩ := List.mem_filter.mp receives
      have heard := (sendsTo_ok known).mp sends
      by_cases same : sheetId = (system.broadcast listing).sheetId
      · -- the new list is the last one of its sheet
        have absent := fair _ found connection target actor (by rw [known]; rfl) heard
        rw [same, LastWrite.overwrite_self]
        exact Or.inr ((shows_presentOn absent).elsewhere rfl rfl)
      · rw [LastWrite.overwrite_of_ne _ _ same]
        refine (tracked.shown connection member actor known sheetId).imp ?_ ?_
        · exact awaits_made found (fun other _ => absurd other.symm same)
        · exact fun shows => shows.elsewhere rfl rfl
    · rw [coming_of_not_mem receives]
      refine (tracked.shown connection member actor known sheetId).imp ?_ ?_
      · apply awaits_made found
        intro same heard target
        exact receives (List.mem_filter.mpr ⟨target, (sendsTo_ok known).mpr heard⟩)
      · exact fun shows => shows.elsewhere rfl rfl
  receivers := by
    intro broadcast member receiver listed
    rcases List.mem_append.mp member with earlier | new
    · exact tracked.receivers broadcast earlier receiver listed
    · obtain rfl := List.mem_singleton.mp new
      have there : listing ∈ system.lookedUp := by
        rw [Tasks.at?_some found]
        exact List.mem_append_right _ List.mem_cons_self
      exact tracked.targets listing there receiver (List.mem_filter.mp listed).1
  targets := by
    intro other member
    apply tracked.targets other
    rw [Tasks.at?_some found]
    rcases List.mem_append.mp member with earlier | later
    · exact List.mem_append_left _ earlier
    · exact List.mem_append_right _ (List.mem_cons_of_mem _ later)
  connected := tracked.connected

/-- The connection in use is the one its address is registered with. -/
theorem isCurrent_of_mem {service : MemoService} {connection : Connection}
    (member : connection ∈ service.memoConnections) : service.isCurrent connection = true := by
  obtain ⟨info, found, same, _⟩ := mem_memoConnections.mp member
  unfold MemoService.isCurrent
  rw [found]
  simp [same]

theorem eq_of_current {service : MemoService} {connection other : Connection}
    (member : connection ∈ service.memoConnections) (current : service.isCurrent other = true)
    (same : other.ip = connection.ip) : other = connection := by
  obtain ⟨info, found, number, _⟩ := mem_memoConnections.mp member
  unfold MemoService.isCurrent at current
  rw [same, found] at current
  simp only [Option.any_some, decide_eq_true_eq] at current
  cases other
  cases connection
  simp_all

/-- A list that has been sent waits to be read, and no list of its sheet is behind it that should
come before. -/
theorem willKeep_send {before after : List Broadcast} {sheet : String} {peers : List OwnedPeer}
    {receiver : Connection} {receivers : List Connection}
    (split : system.broadcasts = before ++ ⟨sheet, peers, receiver :: receivers⟩ :: after)
    (order : ∀ earlier ∈ before, receiver ∈ earlier.receivers → earlier.sheetId ≠ sheet)
    {connection : Connection} (member : connection ∈ system.service.memoConnections) :
    (PresenceSystem.send receiver (sheet, peers)
      { system with broadcasts := before ++ ⟨sheet, peers, receivers⟩ :: after }).willKeep
        connection = system.willKeep connection := by
  by_cases own : receiver = connection
  · subst own
    have current := isCurrent_of_mem member
    unfold willKeep coming PresenceSystem.send
    simp only [current, if_true, Function.update_self, split, List.flatMap_append,
      List.flatMap_cons]
    have first : Broadcast.coming receiver ⟨sheet, peers, receiver :: receivers⟩ =
        (sheet, peers) :: Broadcast.coming receiver ⟨sheet, peers, receivers⟩ := by
      simp [Broadcast.coming]
    have differ : ∀ other ∈ before.flatMap (Broadcast.coming receiver), other.1 ≠ sheet := by
      intro other listed
      obtain ⟨earlier, there, comes⟩ := List.mem_flatMap.mp listed
      by_cases hears : receiver ∈ earlier.receivers
      · obtain ⟨_, _, rfl⟩ := List.mem_map.mp comes
        exact order earlier there hears
      · rw [coming_of_not_mem hears] at comes
        cases comes
    rw [first, List.append_assoc, LastWrite.overwriteAll_append, List.cons_append, List.nil_append,
      LastWrite.overwriteAll_append, List.cons_append, LastWrite.overwriteAll_forward differ]
  · have unsent : Broadcast.coming connection ⟨sheet, peers, receiver :: receivers⟩ =
        Broadcast.coming connection ⟨sheet, peers, receivers⟩ := by
      simp [Broadcast.coming, own]
    have apart : (PresenceSystem.send receiver (sheet, peers)
        { system with broadcasts := before ++ ⟨sheet, peers, receivers⟩ :: after }).members
          connection.ip = system.members connection.ip := by
      unfold PresenceSystem.send
      split
      · rename_i current
        apply Function.update_of_ne
        intro same
        exact own (eq_of_current member current same.symm)
      · rfl
    unfold willKeep coming
    rw [apart, split]
    simp only [PresenceSystem.send, List.flatMap_append, List.flatMap_cons, unsent]

theorem Tracked.send (tracked : system.Tracked) {before after : List Broadcast} {sheet : String}
    {peers : List OwnedPeer} {receiver : Connection} {receivers : List Connection}
    (split : system.broadcasts = before ++ ⟨sheet, peers, receiver :: receivers⟩ :: after)
    (order : ∀ earlier ∈ before, receiver ∈ earlier.receivers → earlier.sheetId ≠ sheet) :
    (PresenceSystem.send receiver (sheet, peers)
      { system with broadcasts := before ++ ⟨sheet, peers, receivers⟩ :: after }).Tracked where
  shown := by
    intro connection member actor known sheetId
    refine (tracked.shown connection member actor known sheetId).imp (fun waits => waits) ?_
    intro shows
    rw [willKeep_send split order member]
    exact shows.elsewhere rfl rfl
  receivers := by
    intro broadcast member other listed
    have old := tracked.receivers
    rw [split] at old
    rcases List.mem_append.mp member with earlier | later
    · exact old broadcast (List.mem_append_left _ earlier) other listed
    · rcases List.mem_cons.mp later with rfl | later
      · exact old ⟨sheet, peers, receiver :: receivers⟩
          (List.mem_append_right _ List.mem_cons_self) other (List.mem_cons_of_mem _ listed)
      · exact old broadcast (List.mem_append_right _ (List.mem_cons_of_mem _ later)) other listed
  targets := tracked.targets
  connected := tracked.connected

/-- Reading a list that has been sent changes nothing of what will be kept. -/
theorem Tracked.deliver (tracked : system.Tracked) {ip : Ipv4Addr} {first : PresenceList}
    {unread : List PresenceList} (waiting : (system.members ip).unread = first :: unread) :
    ({ system with
        members := Function.update system.members ip
          (MemberLists.apply first { system.members ip with unread := unread }) } :
      PresenceSystem).Tracked where
  shown := by
    intro connection member actor known sheetId
    have keeps : ({ system with
        members := Function.update system.members ip
          (MemberLists.apply first { system.members ip with unread := unread }) } :
      PresenceSystem).willKeep connection = system.willKeep connection := by
      unfold willKeep coming
      dsimp only
      by_cases same : connection.ip = ip
      · rw [same, Function.update_self, waiting]
        rfl
      · rw [Function.update_of_ne same]
    refine (tracked.shown connection member actor known sheetId).imp (fun waits => waits) ?_
    intro shows
    rw [keeps]
    exact shows.elsewhere rfl rfl
  receivers := tracked.receivers
  targets := tracked.targets
  connected := tracked.connected

/-- A member that connects keeps lists of those who are there. -/
theorem Tracked.connect (tracked : system.Tracked) {ip : Ipv4Addr} {capabilities : List String}
    {kept : String → List OwnedPeer} (fair : Informed (.connect ip capabilities kept) system) :
    ({ system with
        service := system.service.register ip capabilities
        members := Function.update system.members ip { lists := kept } } :
      PresenceSystem).Tracked where
  shown := by
    intro connection member actor known sheetId
    obtain ⟨info, found, number, capable⟩ := mem_memoConnections.mp member
    by_cases new : connection.ip = ip
    · have known : actorForIp system.service.config ip = .ok actor := by
        rw [← new]
        exact known
      rw [new] at found
      have registered := (Table.get?_insert_self _ ip _).symm.trans found
      cases registered
      have shows := fair capable actor (by rw [known]; rfl) sheetId
      -- no earlier list is for the number of the new connection
      have nothing : system.broadcasts.flatMap (Broadcast.coming connection) = [] := by
        rw [List.flatMap_eq_nil_iff]
        intro broadcast listed
        apply coming_of_not_mem
        intro receives
        have earlier := tracked.receivers broadcast listed connection receives
        rw [← number] at earlier
        exact Nat.lt_irrefl _ earlier
      refine Or.inr ?_
      unfold willKeep coming
      dsimp only
      rw [new, Function.update_self, nothing]
      exact shows.elsewhere rfl rfl
    · have old : connection ∈ system.service.memoConnections :=
        mem_memoConnections.mpr
          ⟨info, (Table.get?_insert_of_ne _ new _).symm.trans found, number, capable⟩
      refine (tracked.shown connection old actor known sheetId).imp (fun waits => waits) ?_
      intro shows
      unfold willKeep coming
      dsimp only
      rw [Function.update_of_ne new]
      exact shows.elsewhere rfl rfl
  receivers := fun broadcast member receiver listed =>
    Nat.lt_succ_of_lt (tracked.receivers broadcast member receiver listed)
  targets := fun listing member target listed =>
    Nat.lt_succ_of_lt (tracked.targets listing member target listed)
  connected := by
    intro other info found
    by_cases new : other = ip
    · rw [new] at found
      have registered := (Table.get?_insert_self _ ip _).symm.trans found
      cases registered
      exact Nat.lt_succ_self _
    · exact Nat.lt_succ_of_lt
        (tracked.connected other info ((Table.get?_insert_of_ne _ new _).symm.trans found))

/-- Connections that are not ended stay. -/
theorem get?_of_unregister {service : MemoService} {connection : Connection} {ip : Ipv4Addr}
    {info : ConnectionInfo}
    (found : (service.unregister connection).connections.get? ip = some info) :
    service.connections.get? ip = some info := by
  unfold MemoService.unregister at found
  dsimp only at found
  split at found
  · rw [Table.get?_erase] at found
    split at found
    · cases found
    · exact found
  · exact found

theorem Tracked.disconnect (tracked : system.Tracked) (connection : Connection) :
    ({ system with service := system.service.unregister connection } : PresenceSystem).Tracked where
  shown := by
    intro other member actor known sheetId
    obtain ⟨info, found, number, capable⟩ := mem_memoConnections.mp member
    have old := mem_memoConnections.mpr ⟨info, get?_of_unregister found, number, capable⟩
    exact (tracked.shown other old actor known sheetId).imp (fun waits => waits)
      (fun shows => shows.elsewhere rfl rfl)
  receivers := tracked.receivers
  targets := tracked.targets
  connected := fun ip info found => tracked.connected ip info (get?_of_unregister found)

theorem Tracked.step {event : PresenceEvent} (tracked : system.Tracked)
    (fair : Followed event system) (happens : presenceStep event system = some next) :
    next.Tracked := by
  cases event with
  | connect ip capabilities kept =>
      cases happens
      exact tracked.connect fair.2
  | disconnect connection =>
      cases happens
      exact tracked.disconnect connection
  | presence actor sheetId row col =>
      cases happens
      exact tracked.present fair.1
  | sweep =>
      cases happens
      exact tracked.sweep
  | lookUp place =>
      obtain ⟨⟨before, announcement, after⟩, found, rfl⟩ := Option.map_eq_some_iff.mp happens
      exact tracked.lookUp (Tasks.at?_some found)
  | list place =>
      obtain ⟨⟨before, listing, after⟩, found, rfl⟩ := Option.map_eq_some_iff.mp happens
      exact tracked.made found fair.1
  | send place =>
      simp only [presenceStep] at happens
      split at happens
      · rename_i before sheet peers receiver receivers after found
        cases happens
        exact tracked.send (Tasks.at?_some found) (fair.1 _ found receiver rfl)
      · cases happens
  | deliver ip =>
      simp only [presenceStep] at happens
      split at happens
      · cases happens
      · rename_i first unread waiting
        cases happens
        exact tracked.deliver waiting
  | wait milliseconds =>
      cases happens
      exact tracked.wait milliseconds

end PresenceSystem

/-! ### No ghosts -/

/-- Every connected member keeps, for each sheet, the list of the others that the host has. -/
def PresenceSystem.Agreed (system : PresenceSystem) : Prop :=
  ∀ connection ∈ system.service.memoConnections, ∀ actor,
    actorForIp system.service.config connection.ip = .ok actor → ∀ sheetId,
      (((system.members connection.ip).lists sheetId).map Prod.snd).Perm
        (sheetPresenceFor system.instant sheetId (some actor.key) system.service.sheetPresence)

/-- Once everything is settled, what will be kept is kept. -/
theorem PresenceSystem.Tracked.agreed {system : PresenceSystem} (tracked : system.Tracked)
    (settled : system.Settled) : system.Agreed := by
  intro connection member actor known sheetId
  rcases tracked.shown connection member actor known sheetId with waits | shows
  · rcases waits with ⟨announcement, listed, _⟩ | ⟨listing, listed, _⟩
    · rw [settled.announced] at listed
      cases listed
    · rw [settled.lookedUp] at listed
      cases listed
  · have nothing : system.coming connection = [] := by
      unfold coming
      rw [settled.read connection member, List.nil_append, List.flatMap_eq_nil_iff]
      intro broadcast listed
      apply coming_of_not_mem
      rw [settled.broadcasts broadcast listed]
      exact List.not_mem_nil
    unfold willKeep at shows
    rw [nothing] at shows
    change system.Shows actor.key sheetId ((system.members connection.ip).lists sheetId) at shows
    rw [← presentOn_peers]
    apply List.Perm.map
    rw [List.perm_ext_iff_of_nodup shows.nodup.of_map nodup_presentOn.of_map]
    intro item
    constructor
    · intro listed
      obtain ⟨differ, entry, found, there, same⟩ := shows.others item listed
      refine mem_presentOn.mpr ⟨entry, found, there, ?_, ?_, same⟩
      · exact settled.swept (item.1, entry) (Table.get?_eq_some.mp found)
      · intro own
        exact differ (Option.some.inj own).symm
    · intro listed
      obtain ⟨entry, found, there, lives, other, same⟩ := mem_presentOn.mp listed
      have shown := shows.complete item.1 entry found there
        (fun own => other (congrArg some own.symm)) lives
      rw [← same] at shown
      exact shown

/-- In every run in which selections stay on their sheets, lists are made for others only and arrive
in order, and members connect with the lists of those who are there, every member's lists are the
host's once everything is settled. -/
theorem presence_followed {config : Config} {db : SharedDb} {events : List PresenceEvent}
    {final : PresenceSystem}
    (fair : Runs.Along presenceStep Followed events (.start (.new config db)))
    (reached : Runs.run presenceStep events (.start (.new config db)) = some final)
    (settled : final.Settled) : final.Agreed := by
  have start : (PresenceSystem.start (.new config db)).Tracked :=
    ⟨fun _ member => (nomatch member), fun _ member => (nomatch member),
      fun _ member => (nomatch member), fun _ _ found => (nomatch found)⟩
  exact (Runs.run_invariant PresenceSystem.Tracked
    (fun _ _ _ tracked fair happens => tracked.step fair happens) start fair reached).agreed settled

/-- Nobody is there yet. -/
theorem PresenceSystem.shows_nil {system : PresenceSystem}
    (empty : system.service.sheetPresence = Table.empty) (key sheetId : String) :
    system.Shows key sheetId [] where
  nodup := List.nodup_nil
  others := fun _ member => (nomatch member)
  complete := by
    intro owner entry found
    rw [empty, Table.get?_empty] at found
    cases found

/-- Alice and Bob connect before anybody selects a cell, and go on with some events. -/
def afterConnecting (events : List PresenceEvent) : List PresenceEvent :=
  .connect aliceIp ["shared_memo"] (fun _ => []) ::
    .connect bobIp ["shared_memo"] (fun _ => []) :: events

/-- Alice selects two cells of a sheet, then Bob one of another sheet; Bob's selection is in time
for the sweep, and Alice's is not. -/
def steadySelections : List PresenceEvent :=
  afterConnecting
    [.presence (.member "a" "Alice") "one" 1 1, .lookUp 0, .list 0, .send 0, .deliver bobIp,
      .presence (.member "a" "Alice") "one" 2 2, .lookUp 0, .wait 5000,
      .presence (.member "b" "Bob") "two" 3 3, .list 0, .send 1, .deliver bobIp, .lookUp 0,
      .wait 6000, .sweep, .list 0, .lookUp 0, .send 2, .list 0, .send 3, .deliver aliceIp,
      .deliver aliceIp, .send 3, .deliver bobIp]

/-- Alice has Bob's selection, and Bob has none. -/
theorem presence_followed_steady :
    ∃ final, Runs.run presenceStep steadySelections (.start (.new twoMembers SharedDb.empty)) =
        some final ∧
      final.Agreed ∧
      (final.members aliceIp).lists "two" = [selection "b" "Bob" 3 3] ∧
      (final.members bobIp).lists "one" = [] := by
  have steady : Runs.Along presenceStep Steady steadySelections
      (.start (.new twoMembers SharedDb.empty)) := by decide
  have informed : Runs.Along presenceStep Informed steadySelections
      (.start (.new twoMembers SharedDb.empty)) := by
    refine ⟨fun _ actor _ sheetId => PresenceSystem.shows_nil rfl actor.key sheetId, ?_⟩
    intro next happens
    cases happens
    refine ⟨fun _ actor _ sheetId => PresenceSystem.shows_nil rfl actor.key sheetId, ?_⟩
    intro next _
    exact Runs.along_of_forall (by simp [Informed]) next
  refine ⟨_, rfl, presence_followed (steady.and informed) rfl ?_, rfl, rfl⟩
  exact ⟨rfl, rfl, by decide, by decide, by decide⟩

/-- Bob goes from one sheet to another, and stays on Alice's list of the first. -/
theorem presence_ghost :
    ¬ ∀ (config : Config) (db : SharedDb) (events : List PresenceEvent) final,
      Runs.run presenceStep events (.start (.new config db)) = some final → final.Settled →
        final.Agreed := by
  intro agrees
  have agreed := agrees twoMembers SharedDb.empty
    (afterConnecting
      [.presence (.member "b" "Bob") "one" 1 1, .lookUp 0, .list 0, .send 0, .deliver aliceIp,
        .presence (.member "b" "Bob") "two" 2 2, .lookUp 0, .list 0, .send 1, .deliver aliceIp])
    _ rfl ⟨rfl, rfl, by decide, by decide, by decide⟩
  have ghost := agreed aliceConnection List.mem_cons_self
    ((Actor.member "a" "Alice").withAdmin false) rfl "one"
  exact absurd ghost.length_eq (by decide)

end PeerCove
