/-
Module: PeerCove.Proofs.LedgerFilter
Layer: Proofs
Purpose: What a member learns from its ledger about members it is kept from and members that wait
  for an approval.
Trusted boundary: none
Main exports: LedgerConfined, NamesKnown, ledger_confined_iff
-/
import PeerCove.Host.Distribution

namespace PeerCove

/-! ### What the ledger may say -/

/-- The name stands under the label: the label is its last part, and not its only one. -/
def underLabel (name label : String) : Bool :=
  match (Text.split '.' name).reverse with
  | last :: _ :: _ => last = label
  | _ => false

namespace Distribution

/-- The labels of the members that wait for an approval, as every node derives them. -/
def awaitingLabels (dist : Distribution) : List String :=
  ((labelledMembers dist.members).filter (fun entry => entry.1.awaitsApproval)).map Prod.snd

def recipientIsHost (dist : Distribution) (memberIp : Ipv4Addr) : Bool :=
  dist.members.any (fun entry => entry.ip = memberIp && entry.isHost)

/-- The pair is denied. -/
def denies (dist : Distribution) (memberIp ip : Ipv4Addr) : Prop :=
  ∃ pair ∈ dist.deny, pairIs pair.1 pair.2 memberIp ip = true

/-- The pair must be relayed. -/
def relays (dist : Distribution) (memberIp ip : Ipv4Addr) : Prop :=
  ∃ pair ∈ dist.forceRelay, pairIs pair.1 pair.2.1 memberIp ip = true

end Distribution

/-- The ledger one recipient is sent keeps what it has to keep back. -/
structure LedgerConfined (dist : Distribution) (memberIp : Ipv4Addr) (message : LedgerMessage) :
    Prop where
  denied : ∀ entry ∈ message.members, dist.denies memberIp entry.ip →
    entry.endpoint = none ∧ entry.blocked = true
  relayed : ∀ entry ∈ message.members, dist.relays memberIp entry.ip →
    entry.endpoint = none ∧ entry.forceRelay = true
  entriesHidden : dist.recipientIsHost memberIp = false → dist.recipientIsAdmin memberIp = false →
    ∀ entry ∈ message.members, entry.awaitsApproval = false
  targetsHidden : dist.recipientIsHost memberIp = false → dist.recipientIsAdmin memberIp = false →
    ∀ record ∈ message.dnsRecords, ∀ member ∈ dist.members, member.awaitsApproval = true →
      record.ip ≠ member.ip
  parentsHidden : dist.recipientIsHost memberIp = false → dist.recipientIsAdmin memberIp = false →
    ∀ record ∈ message.dnsRecords, ∀ label ∈ dist.awaitingLabels,
      underLabel record.name label = false
  cnamesHidden : dist.recipientIsHost memberIp = false → dist.recipientIsAdmin memberIp = false →
    ∀ record ∈ message.cnameRecords, ∀ label ∈ dist.awaitingLabels,
      underLabel record.name label = false
  endpointsHidden : ∀ entry ∈ message.members, entry.awaitsApproval = true → entry.endpoint = none

/-- The member, or another entry with the address of one that waits for an approval, has this
fixed name. -/
def Distribution.fixedNameWaits (dist : Distribution) (fixed : String) : Prop :=
  ∃ entry ∈ dist.members, entry.dnsName = some fixed ∧
    ∃ member ∈ dist.members, member.awaitsApproval = true ∧ member.ip = entry.ip

/-- Members that wait for an approval are known by their addresses and fixed names alone. -/
structure NamesKnown (dist : Distribution) (memberIp : Ipv4Addr) : Prop where
  /-- Only such a member's own address stands under its label. -/
  records : dist.recipientIsHost memberIp = false → dist.recipientIsAdmin memberIp = false →
    ∀ record ∈ dist.dnsRecords, ∀ label ∈ dist.awaitingLabels,
      underLabel record.name label = true →
      ∃ member ∈ dist.members, member.awaitsApproval = true ∧ record.ip = member.ip
  /-- An alias under its label has a fixed name among its parts. -/
  cnames : dist.recipientIsHost memberIp = false → dist.recipientIsAdmin memberIp = false →
    ∀ record ∈ dist.cnameRecords, ∀ label ∈ dist.awaitingLabels,
      underLabel record.name label = true →
      ∃ fixed ∈ Text.split '.' record.name, dist.fixedNameWaits fixed
  /-- It has no endpoint that an administrator could be sent. -/
  endpoints : dist.recipientIsAdmin memberIp = true →
    ∀ entry ∈ dist.members, entry.awaitsApproval = true →
      entry.endpoint = none ∨ dist.denies memberIp entry.ip ∨ dist.relays memberIp entry.ip

/-! ### One entry -/

/-- The two halves of the loop body. -/
def entryFor (dist : Distribution) (memberIp : Ipv4Addr) (entry : LedgerEntry) : LedgerEntry :=
  relayEntry dist.forceRelay memberIp (blockEntry dist.deny memberIp entry)

section

variable (dist : Distribution) (memberIp : Ipv4Addr) (entry : LedgerEntry)

@[simp] theorem blockEntry_ip : (blockEntry dist.deny memberIp entry).ip = entry.ip := by
  unfold blockEntry
  split <;> rfl

/-- The edits for a recipient leave the address and the invitation. -/
@[simp] theorem entryFor_ip : (entryFor dist memberIp entry).ip = entry.ip := by
  unfold entryFor relayEntry
  split <;> exact blockEntry_ip dist memberIp entry

@[simp] theorem entryFor_awaits :
    (entryFor dist memberIp entry).awaitsApproval = entry.awaitsApproval := by
  unfold entryFor relayEntry blockEntry
  split <;> split <;> rfl

variable {dist memberIp entry}

theorem deny_any : dist.deny.any (fun pair => pairIs pair.1 pair.2 memberIp entry.ip) = true ↔
    dist.denies memberIp entry.ip := by
  rw [List.any_eq_true]
  rfl

/-- A denied entry is blocked, and relaying does not undo it. -/
theorem entryFor_denied (denied : dist.denies memberIp entry.ip) :
    (entryFor dist memberIp entry).endpoint = none ∧
      (entryFor dist memberIp entry).blocked = true := by
  unfold entryFor relayEntry
  rw [blockEntry, if_pos (deny_any.mpr denied)]
  split
  · exact ⟨rfl, rfl⟩
  · exact ⟨rfl, rfl⟩

theorem entryFor_relayed (relayed : dist.relays memberIp entry.ip) :
    (entryFor dist memberIp entry).endpoint = none ∧
      (entryFor dist memberIp entry).forceRelay = true := by
  obtain ⟨pair, listed, holds⟩ := relayed
  unfold entryFor relayEntry
  rw [blockEntry_ip]
  split
  · exact ⟨rfl, rfl⟩
  · rename_i missing
    exact absurd holds (List.find?_eq_none.mp missing pair listed)

/-- Any other entry keeps its endpoint. -/
theorem entryFor_endpoint : (entryFor dist memberIp entry).endpoint = none ↔
    entry.endpoint = none ∨ dist.denies memberIp entry.ip ∨ dist.relays memberIp entry.ip := by
  constructor
  · intro dropped
    by_cases denied : dist.denies memberIp entry.ip
    · exact .inr (.inl denied)
    · have untouched : blockEntry dist.deny memberIp entry = entry := by
        rw [blockEntry, if_neg (fun found => denied (deny_any.mp found))]
      unfold entryFor relayEntry at dropped
      rw [untouched] at dropped
      split at dropped
      · rename_i pair found
        have holds := List.find?_some found
        exact .inr (.inr ⟨_, List.mem_of_find?_eq_some found, holds⟩)
      · exact .inl dropped
  · rintro (empty | denied | relayed)
    · unfold entryFor relayEntry blockEntry
      split <;> split <;> simp [empty]
    · exact (entryFor_denied denied).1
    · exact (entryFor_relayed relayed).1

end

/-! ### The lists -/

section

variable {dist : Distribution} {memberIp : Ipv4Addr}

theorem mem_isolatedIps {ip : Ipv4Addr} : ip ∈ dist.isolatedIps ↔
    ∃ member ∈ dist.members, member.awaitsApproval = true ∧ ip = member.ip := by
  simp only [Distribution.isolatedIps, List.mem_map, List.mem_filter]
  constructor
  · rintro ⟨member, ⟨listed, awaits⟩, rfl⟩
    exact ⟨member, listed, awaits, rfl⟩
  · rintro ⟨member, listed, awaits, rfl⟩
    exact ⟨member, ⟨listed, awaits⟩, rfl⟩

theorem mem_isolatedLabels {fixed : String} :
    fixed ∈ dist.isolatedLabels ↔ dist.fixedNameWaits fixed := by
  simp only [Distribution.isolatedLabels, List.mem_filterMap, List.mem_filter, decide_eq_true_eq,
    mem_isolatedIps]
  constructor
  · rintro ⟨entry, ⟨listed, member, waits, awaits, same⟩, named⟩
    exact ⟨entry, listed, named, member, waits, awaits, same.symm⟩
  · rintro ⟨entry, listed, named, member, waits, awaits, same⟩
    exact ⟨entry, ⟨listed, member, waits, awaits, same.symm⟩, named⟩

/-- The entries of the message are edited entries of the distribution. -/
theorem mem_message_members {entry : LedgerEntry}
    (sent : entry ∈ (ledgerMessageFor dist memberIp).members) :
    ∃ source ∈ dist.members, entry = entryFor dist memberIp source ∧
      (dist.recipientIsAdmin memberIp = false → source.ip ∉ dist.isolatedIps) := by
  obtain ⟨source, kept, rfl⟩ := List.mem_map.mp sent
  cases admin : dist.recipientIsAdmin memberIp with
  | true =>
      rw [admin] at kept
      exact ⟨source, kept, rfl, fun impossible => nomatch impossible⟩
  | false =>
      rw [admin] at kept
      obtain ⟨listed, apart⟩ := List.mem_filter.mp kept
      exact ⟨source, listed, rfl, fun _ => of_decide_eq_true apart⟩

theorem mem_message_dnsRecords {record : DnsRecord} :
    record ∈ (ledgerMessageFor dist memberIp).dnsRecords ↔
      record ∈ dist.dnsRecords ∧ record.ip ∉ dist.isolatedIps := by
  simp [ledgerMessageFor]

theorem mem_message_cnameRecords {record : CnameRecord} :
    record ∈ (ledgerMessageFor dist memberIp).cnameRecords ↔
      record ∈ dist.cnameRecords ∧
        ∀ fixed ∈ Text.split '.' record.name, ¬ dist.fixedNameWaits fixed := by
  simp only [ledgerMessageFor, List.mem_filter, Bool.not_eq_true', List.any_eq_false,
    List.any_eq_true, decide_eq_true_eq, not_exists, not_and, mem_isolatedLabels]
  constructor
  · rintro ⟨listed, apart⟩
    exact ⟨listed, fun fixed part waits => apart fixed waits fixed part rfl⟩
  · rintro ⟨listed, apart⟩
    refine ⟨listed, fun fixed waits part member same => ?_⟩
    subst same
    exact apart part member waits

/-- An entry that waits for an approval is sent to administrators only. -/
theorem message_entriesHidden (ordinary : dist.recipientIsAdmin memberIp = false) :
    ∀ entry ∈ (ledgerMessageFor dist memberIp).members, entry.awaitsApproval = false := by
  intro entry sent
  obtain ⟨source, listed, rfl, apart⟩ := mem_message_members sent
  rw [entryFor_awaits]
  cases awaits : source.awaitsApproval with
  | false => rfl
  | true => exact absurd (mem_isolatedIps.mpr ⟨source, listed, awaits, rfl⟩) (apart ordinary)

end

/-- A ledger keeps back what it has to exactly when the members that wait for an approval are
known by their addresses and fixed names alone. -/
theorem ledger_confined_iff (dist : Distribution) (memberIp : Ipv4Addr) :
    LedgerConfined dist memberIp (ledgerMessageFor dist memberIp) ↔ NamesKnown dist memberIp := by
  constructor
  · intro confined
    constructor
    · intro notHost ordinary record listed label awaiting under
      by_contra unknown
      have sent : record ∈ (ledgerMessageFor dist memberIp).dnsRecords :=
        mem_message_dnsRecords.mpr ⟨listed, fun isolated => unknown (mem_isolatedIps.mp isolated)⟩
      have hidden := confined.parentsHidden notHost ordinary record sent label awaiting
      rw [under] at hidden
      cases hidden
    · intro notHost ordinary record listed label awaiting under
      by_contra unknown
      have sent : record ∈ (ledgerMessageFor dist memberIp).cnameRecords :=
        mem_message_cnameRecords.mpr
          ⟨listed, fun fixed part waits => unknown ⟨fixed, part, waits⟩⟩
      have hidden := confined.cnamesHidden notHost ordinary record sent label awaiting
      rw [under] at hidden
      cases hidden
    · intro admin entry listed awaits
      have sent : entryFor dist memberIp entry ∈ (ledgerMessageFor dist memberIp).members := by
        refine List.mem_map_of_mem ?_
        rw [admin]
        exact listed
      exact entryFor_endpoint.mp (confined.endpointsHidden _ sent (by simpa using awaits))
  · intro known
    constructor
    · intro entry sent denied
      obtain ⟨source, _, rfl, _⟩ := mem_message_members sent
      rw [entryFor_ip] at denied
      exact entryFor_denied denied
    · intro entry sent relayed
      obtain ⟨source, _, rfl, _⟩ := mem_message_members sent
      rw [entryFor_ip] at relayed
      exact entryFor_relayed relayed
    · exact fun _ ordinary => message_entriesHidden ordinary
    · intro _ _ record sent member listed awaits same
      exact (mem_message_dnsRecords.mp sent).2
        (mem_isolatedIps.mpr ⟨member, listed, awaits, same⟩)
    · intro notHost ordinary record sent label awaiting
      obtain ⟨listed, apart⟩ := mem_message_dnsRecords.mp sent
      cases under : underLabel record.name label with
      | false => rfl
      | true =>
          have isolated := known.records notHost ordinary record listed label awaiting under
          exact absurd (mem_isolatedIps.mpr isolated) apart
    · intro notHost ordinary record sent label awaiting
      obtain ⟨listed, apart⟩ := mem_message_cnameRecords.mp sent
      cases under : underLabel record.name label with
      | false => rfl
      | true =>
          obtain ⟨fixed, part, waits⟩ :=
            known.cnames notHost ordinary record listed label awaiting under
          exact absurd waits (apart fixed part)
    · intro entry sent awaits
      cases admin : dist.recipientIsAdmin memberIp with
      | false =>
          have hidden := message_entriesHidden admin entry sent
          rw [awaits] at hidden
          cases hidden
      | true =>
          obtain ⟨source, listed, rfl, _⟩ := mem_message_members sent
          rw [entryFor_awaits] at awaits
          exact entryFor_endpoint.mpr (known.endpoints admin source listed awaits)

/-! ### A member without a fixed name -/

/-- Bob, and Carol who waits for an approval: she has a printer in her network and an alias, both
under the label made of her name. -/
def carolWaits : Distribution where
  members := [
    { name := some "bob", ip := 0x0a070003, publicKey := ⟨2⟩, online := true },
    { name := some "carol", ip := 0x0a070004, publicKey := ⟨3⟩, online := true,
      inviteStatus := some "awaiting_approval" }]
  dnsRecords := [{ name := "printer.carol", ip := 0xc0a80a32 }]
  cnameRecords := [{ name := "docs.carol", target := "wiki" }]

/-- Bob learns of the printer. -/
theorem ledger_tellsOfCarol :
    ¬ ∀ dist memberIp, LedgerConfined dist memberIp (ledgerMessageFor dist memberIp) := by
  intro confined
  have parents := (confined carolWaits 0x0a070003).parentsHidden (by decide)
    (by decide) { name := "printer.carol", ip := 0xc0a80a32 } (by decide) "carol"
    (by decide)
  have under : underLabel "printer.carol" "carol" = true := by decide
  rw [under] at parents
  cases parents

end PeerCove
