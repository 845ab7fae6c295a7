import PeerBook.Proofs.Gossip.Sending
import PeerBook.Proofs.Store.Session

namespace PeerBook

inductive Fate where
  | own
  | failed
  | stale
  | mismatched
  | discovered
  | moved
  | refreshed
  deriving DecidableEq, Repr

namespace Fate

def isApplied : Fate → Bool
  | discovered | moved | refreshed => true
  | own | failed | stale | mismatched => false

def isProbed : Fate → Bool
  | discovered | moved => true
  | own | failed | stale | mismatched | refreshed => false

def ofReport (report : MergeReport) (r : Record) : Fate :=
  match report.outcome with
  | .rejected .stale => stale
  | .rejected .keyMismatch => mismatched
  | .applied =>
    if report.firstEncounter then discovered
    else if report.movedEndpoint r then moved
    else refreshed

end Fate

structure Visit where
  entry : Record
  fate : Fate
  deriving DecidableEq, Repr

namespace Visit

def event? (source : String) (v : Visit) : Option GossipEvent :=
  match v.fate with
  | .mismatched => some (.keyMismatch v.entry.identity source)
  | .discovered => some (.peerDiscovered v.entry.identity v.entry.address)
  | .moved => some (.endpointChanged v.entry.identity v.entry.address)
  | .own | .failed | .stale | .refreshed => none

def probe? (v : Visit) : Option Outbound :=
  if v.fate.isProbed then v.entry.endpoint?.map fun address => ⟨address, probeKind, probeBody⟩
  else none

def count (fate : Fate) (visits : List Visit) : Nat :=
  visits.countP fun v => v.fate = fate

theorem kind_of_probe? {v : Visit} {d : Outbound} (h : v.probe? = some d) : d.kind = probeKind := by
  rw [probe?] at h
  split at h
  · obtain ⟨address, -, rfl⟩ := Option.map_eq_some_iff.mp h
    rfl
  · cases h

end Visit

def BatchSummary.book (summary : BatchSummary) (visits : List Visit) (probes : Nat) :
    BatchSummary :=
  { summary with
    skippedSelf := summary.skippedSelf + Visit.count .own visits
    applied := summary.applied + visits.countP fun v => v.fate.isApplied
    discovered := summary.discovered + Visit.count .discovered visits
    stale := summary.stale + Visit.count .stale visits
    keyMismatches := summary.keyMismatches + Visit.count .mismatched visits
    probesSent := summary.probesSent + probes
    failed := summary.failed + Visit.count .failed visits }

@[simp] theorem BatchSummary.book_nil (summary : BatchSummary) : summary.book [] 0 = summary := rfl

theorem BatchSummary.book_cons (summary : BatchSummary) (v : Visit) (visits : List Visit)
    (probes more : Nat) :
    summary.book (v :: visits) (probes + more) = (summary.book [v] probes).book visits more := by
  have hcount (p : Visit → Bool) : (v :: visits).countP p = [v].countP p + visits.countP p := by
    rw [← List.singleton_append, List.countP_append]
  simp only [book, Visit.count, hcount, Nat.add_assoc]

theorem Throttle.fst_hear (t : Throttle) (source : String) (now : Nat) :
    (t.hear source now).1 = t.admits source now := by
  rw [hear]
  cases t.admits source now <;> rfl

namespace Gossiper

variable {σ : Type}

theorem probe_eq (g : Gossiper σ) {v : Visit} (h : v.fate.isProbed) :
    ∃ probed, g.probe v.entry =
        (probed, { g with transport := g.transport.sendEach v.probe?.toList }) ∧
      probed.toNat = (g.transport.taken v.probe?.toList).length := by
  rw [probe, Visit.probe?, if_pos h]
  cases v.entry.endpoint? with
  | none => exact ⟨false, by simp [Transport.taken]⟩
  | some address => exact ⟨_, send_eq _, (Transport.length_taken_singleton _).symm⟩

variable [RecordStore σ]

def takeIn (identity : String) (s : σ) (r : Record) : Visit × σ :=
  if r.identity = identity then (⟨r, .own⟩, s)
  else
    match RecordStore.merge s r with
    | .error _ => (⟨r, .failed⟩, s)
    | .ok (report, t) => (⟨r, .ofReport report r⟩, t)

theorem mergeOne_eq (source : String) (summary : BatchSummary) (g : Gossiper σ) (r : Record) :
    mergeOne source (summary, g) r =
      (summary.book [(takeIn g.localIdentity g.store r).1]
        (g.transport.taken (takeIn g.localIdentity g.store r).1.probe?.toList).length,
        { g with
          store := (takeIn g.localIdentity g.store r).2
          transport := g.transport.sendEach (takeIn g.localIdentity g.store r).1.probe?.toList
          events := g.events ++ ((takeIn g.localIdentity g.store r).1.event? source).toList }) := by
  rw [mergeOne, takeIn]
  by_cases hown : r.identity = g.localIdentity
  · simp [hown, BatchSummary.book, Visit.count, Visit.probe?, Visit.event?, Fate.isProbed,
      Fate.isApplied, Transport.taken]
  · rw [if_neg hown, if_neg hown]
    cases hmerge : RecordStore.merge g.store r with
    | error fault =>
        simp [BatchSummary.book, Visit.count, Visit.probe?, Visit.event?, Fate.isProbed,
          Fate.isApplied, Transport.taken]
    | ok result =>
        obtain ⟨report, t⟩ := result
        cases houtcome : report.outcome with
        | rejected why =>
            cases why <;>
              simp [Fate.ofReport, houtcome, BatchSummary.book, Visit.count, Visit.probe?,
                Visit.event?, Fate.isProbed, Fate.isApplied, Transport.taken, emit]
        | applied =>
            by_cases hfirst : report.firstEncounter
            · have hfate : Fate.ofReport report r = .discovered := by
                simp [Fate.ofReport, houtcome, hfirst]
              obtain ⟨probed, hprobe, hcount⟩ :=
                probe_eq { g with store := t } (v := ⟨r, .discovered⟩) rfl
              simp [houtcome, hfirst, hfate, hprobe, ← hcount, BatchSummary.book, Visit.count,
                Visit.event?, Fate.isApplied, emit]
            · by_cases hmoved : report.movedEndpoint r
              · have hfate : Fate.ofReport report r = .moved := by
                  simp [Fate.ofReport, houtcome, hfirst, hmoved]
                obtain ⟨probed, hprobe, hcount⟩ :=
                  probe_eq { g with store := t } (v := ⟨r, .moved⟩) rfl
                simp [houtcome, hfirst, hmoved, hfate, hprobe, ← hcount, BatchSummary.book,
                  Visit.count, Visit.event?, Fate.isApplied, emit]
              · simp [Fate.ofReport, houtcome, hfirst, hmoved, BatchSummary.book, Visit.count,
                  Visit.probe?, Visit.event?, Fate.isProbed, Fate.isApplied, Transport.taken]

def visits (identity : String) : (s : σ) → List Record → List Visit × σ
  | s, [] => ([], s)
  | s, r :: rs =>
    let (v, t) := takeIn identity s r
    let (vs, u) := visits identity t rs
    (v :: vs, u)

theorem visits_cons (identity : String) (s : σ) (r : Record) (rs : List Record) :
    visits identity s (r :: rs) =
      ((takeIn identity s r).1 :: (visits identity (takeIn identity s r).2 rs).1,
        (visits identity (takeIn identity s r).2 rs).2) := rfl

theorem entry_takeIn (identity : String) (s : σ) (r : Record) :
    (takeIn identity s r).1.entry = r := by
  rw [takeIn]
  split
  · rfl
  · split <;> rfl

theorem map_entry_visits (identity : String) (s : σ) (records : List Record) :
    (visits identity s records).1.map Visit.entry = records := by
  induction records generalizing s with
  | nil => rfl
  | cons r rs ih => rw [visits_cons, List.map_cons, entry_takeIn, ih]

/-- The entries are probed one by one as they are taken in, so the transport sees them in order. -/
theorem foldl_mergeOne (source : String) (summary : BatchSummary) (g : Gossiper σ)
    (records : List Record) :
    records.foldl (mergeOne source) (summary, g) =
      (summary.book (visits g.localIdentity g.store records).1 (g.transport.taken
          ((visits g.localIdentity g.store records).1.filterMap Visit.probe?)).length,
        { g with
          store := (visits g.localIdentity g.store records).2
          transport := g.transport.sendEach
            ((visits g.localIdentity g.store records).1.filterMap Visit.probe?)
          events := g.events ++
            (visits g.localIdentity g.store records).1.filterMap (Visit.event? source) }) := by
  induction records generalizing summary g with
  | nil => simp [visits, Transport.taken]
  | cons r rs ih =>
      rw [List.foldl_cons, mergeOne_eq, ih, visits_cons]
      dsimp only
      have hcons {α : Type} (f : Visit → Option α) (v : Visit) (vs : List Visit) :
          (v :: vs).filterMap f = (f v).toList ++ vs.filterMap f := by
        cases h : f v <;> simp [h]
      rw [hcons, hcons, Transport.taken_append, Transport.sendEach_append, List.length_append,
        BatchSummary.book_cons, List.append_assoc]

def trimmed (s : σ) : Nat × σ :=
  match RecordStore.trim s with
  | .ok result => result
  | .error _ => (0, s)

theorem trimStore_eq (g : Gossiper σ) :
    g.trimStore = ((trimmed g.store).1, { g with store := (trimmed g.store).2 }) := by
  rw [trimStore, trimmed]
  cases RecordStore.trim g.store <;> rfl

def summaryOf (g : Gossiper σ) (packet : Packet) (vs : List Visit) (t : σ) : BatchSummary :=
  { (({ received := packet.records.length, dropped := packet.dropped } : BatchSummary).book vs
      (g.transport.taken (vs.filterMap Visit.probe?)).length) with evicted := (trimmed t).1 }

theorem receive_of_refused {g : Gossiper σ} {source : String} {now : Nat}
    (hrefused : (g.throttle.hear source now).1 = false) (text : String) :
    g.receive text source now = (.throttled,
      { g with throttle := (g.throttle.hear source now).2 }.emit (.throttled source)) := by
  rw [receive]
  dsimp only
  rw [hrefused]
  rfl

theorem receive_of_unreadable {g : Gossiper σ} {text source : String} {now : Nat} {fault : Fault}
    (hheard : (g.throttle.hear source now).1 = true) (hdecode : Packet.decode text = .error fault) :
    g.receive text source now = (.malformed,
      { g with throttle := (g.throttle.hear source now).2 }.emit
        (.malformedPayload source fault)) := by
  rw [receive]
  dsimp only
  rw [hheard, hdecode]
  rfl

theorem receive_of_packet {g : Gossiper σ} {text source : String} {now : Nat} {packet : Packet}
    {vs : List Visit} {t : σ} (hheard : (g.throttle.hear source now).1 = true)
    (hdecode : Packet.decode text = .ok packet)
    (hvisits : visits g.localIdentity g.store packet.records = (vs, t)) :
    g.receive text source now = (.processed (g.summaryOf packet vs t),
      { g with
        throttle := (g.throttle.hear source now).2
        store := (trimmed t).2
        transport := g.transport.sendEach (vs.filterMap Visit.probe?)
        events := g.events ++ vs.filterMap (Visit.event? source) ++
          [.batchMerged source (g.summaryOf packet vs t).applied
            (g.summaryOf packet vs t).stale (g.summaryOf packet vs t).keyMismatches] }) := by
  rw [receive]
  dsimp only
  rw [hheard, hdecode]
  dsimp only
  rw [foldl_mergeOne]
  dsimp only
  rw [trimStore_eq, hvisits]
  rfl

theorem receive_cases (g : Gossiper σ) (text source : String) (now : Nat) :
    ((∀ summary, (g.receive text source now).1 ≠ .processed summary) ∧
      ∃ throttle events, (g.receive text source now).2 = { g with throttle, events }) ∨
    ∃ packet vs t throttle, Packet.decode text = .ok packet ∧
      visits g.localIdentity g.store packet.records = (vs, t) ∧
      g.receive text source now = (.processed (g.summaryOf packet vs t),
        { g with
          throttle
          store := (trimmed t).2
          transport := g.transport.sendEach (vs.filterMap Visit.probe?)
          events := g.events ++ vs.filterMap (Visit.event? source) ++
            [.batchMerged source (g.summaryOf packet vs t).applied
              (g.summaryOf packet vs t).stale (g.summaryOf packet vs t).keyMismatches] }) := by
  cases hheard : (g.throttle.hear source now).1 with
  | false =>
      rw [receive_of_refused hheard]
      exact .inl ⟨nofun, _, _, rfl⟩
  | true =>
      cases hdecode : Packet.decode text with
      | error fault =>
          rw [receive_of_unreadable hheard hdecode]
          exact .inl ⟨nofun, _, _, rfl⟩
      | ok packet =>
          exact .inr ⟨packet, _, _, _, rfl, rfl, receive_of_packet hheard hdecode rfl⟩

/-- What a node sends because of a packet are probes. -/
theorem mem_sent_receive {g : Gossiper σ} {text source : String} {now : Nat} {d : Outbound}
    (hd : d ∈ (g.receive text source now).2.transport.sent) :
    d ∈ g.transport.sent ∨ d.kind = probeKind := by
  rcases g.receive_cases text source now with ⟨-, throttle, events, h⟩ |
    ⟨packet, vs, t, throttle, -, -, h⟩
  · rw [h] at hd
    exact .inl hd
  · rw [h] at hd
    refine (Transport.mem_sent_sendEach hd).imp_right fun hprobe => ?_
    obtain ⟨v, -, hv⟩ := List.mem_filterMap.mp hprobe
    exact Visit.kind_of_probe? hv

theorem localIdentity_receive (g : Gossiper σ) (text source : String) (now : Nat) :
    (g.receive text source now).2.localIdentity = g.localIdentity := by
  rcases g.receive_cases text source now with ⟨-, throttle, events, h⟩ |
    ⟨packet, vs, t, throttle, -, -, h⟩ <;> rw [h]

section Calls

variable {σ : Type} [StoreKind σ]

open StoreKind

def batchCalls (identity : String) (records : List Record) : List Call :=
  (records.filter fun r => r.identity ≠ identity).map .merge ++ [.trim]

theorem mem_batchCalls {identity : String} {records : List Record} {call : Call} :
    call ∈ batchCalls identity records ↔
      (∃ r ∈ records, r.identity ≠ identity ∧ call = .merge r) ∨ call = .trim := by
  rw [batchCalls, List.mem_append, List.mem_singleton, List.mem_map]
  refine or_congr_left ⟨?_, ?_⟩
  · rintro ⟨r, hr, rfl⟩
    obtain ⟨hr, hne⟩ := List.mem_filter.mp hr
    exact ⟨r, hr, of_decide_eq_true hne, rfl⟩
  · rintro ⟨r, hr, hne, rfl⟩
    exact ⟨r, List.mem_filter.mpr ⟨hr, decide_eq_true hne⟩, rfl⟩

theorem snd_takeIn (identity : String) (s : σ) (r : Record) : (takeIn identity s r).2 =
    if r.identity = identity then s else (perform s (.merge r)).2 := by
  rw [takeIn, perform]
  split
  · rfl
  · cases RecordStore.merge s r <;> rfl

theorem snd_visits (identity : String) (s : σ) (records : List Record) :
    (visits identity s records).2 =
      after s ((records.filter fun r => r.identity ≠ identity).map .merge) := by
  induction records generalizing s with
  | nil => rfl
  | cons r rs ih =>
      rw [visits_cons, ih, snd_takeIn]
      by_cases h : r.identity = identity <;> simp [h]

theorem snd_trimmed (s : σ) : (trimmed s).2 = (perform s .trim).2 := by
  rw [trimmed, perform]
  cases RecordStore.trim s <;> rfl

def callsOfText (g : Gossiper σ) (text source : String) (now : Nat) : List Call :=
  match (g.receive text source now).1, Packet.decode text with
  | .processed _, .ok packet => batchCalls g.localIdentity packet.records
  | _, _ => []

theorem mem_callsOfText {g : Gossiper σ} {text source : String} {now : Nat} {call : Call}
    (h : call ∈ g.callsOfText text source now) :
    ∃ packet, Packet.decode text = .ok packet ∧
      call ∈ batchCalls g.localIdentity packet.records := by
  rw [callsOfText] at h
  split at h
  · rename_i packet _ hdecode
    exact ⟨packet, hdecode, h⟩
  · cases h

/-- Any text comes to calls on the store, none if it is turned away. -/
theorem store_receive (g : Gossiper σ) (text source : String) (now : Nat) :
    (g.receive text source now).2.store = after g.store (g.callsOfText text source now) := by
  rcases g.receive_cases text source now with ⟨hrefused, throttle, events, h⟩ |
    ⟨packet, vs, t, throttle, hdecode, hvisits, h⟩
  · have hnone : g.callsOfText text source now = [] := by
      rw [callsOfText]
      cases houtcome : (g.receive text source now).1 with
      | processed summary => exact (hrefused summary houtcome).elim
      | throttled | malformed => rfl
    rw [hnone, h]
    rfl
  · simp only [callsOfText, h, hdecode]
    rw [batchCalls, after_append, ← snd_visits, hvisits]
    exact snd_trimmed t

end Calls

end Gossiper

end PeerBook
