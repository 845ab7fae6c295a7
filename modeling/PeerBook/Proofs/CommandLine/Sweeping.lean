import PeerBook.CommandLine.Run
import PeerBook.Proofs.Disk.Directories
import PeerBook.Proofs.Node.Staleness
import PeerBook.Proofs.Store.Image

namespace PeerBook

namespace DurableStore

variable {s t : DurableStore} {seed fresh : Seed} {C : Cache} {tables : Tables}

theorem seed_of_seedOr (h : s.seedOr fresh = .ok (seed, t)) :
    t.tables.seed = some seed.octets ∧ t.capacity = s.capacity := by
  rw [seedOr] at h
  split at h
  · rename_i octets hoctets
    rw [Seed.ofOctets] at h
    split at h
    · cases h
      exact ⟨hoctets, rfl⟩
    · cases h
  · cases h
    exact ⟨rfl, rfl⟩

theorem shows_withSeed (h : CacheLike.shows s C) (octets : Option Octets) :
    CacheLike.shows (s.withTables { s.tables with seed := octets }) C := by
  obtain ⟨m, ⟨hcapacity, hmirrors⟩, hshows⟩ := h
  exact ⟨m, ⟨hcapacity, hmirrors.records, hmirrors.filed, hmirrors.index⟩, hshows⟩

theorem seedOr_of_kept (h : s.tables.seed = some seed.octets) (fresh : Seed) :
    s.seedOr fresh = .ok (seed, s) := by
  have hseed : Seed.ofOctets seed.octets = .ok seed := dif_pos seed.length_eq
  rw [seedOr, h]
  simp only [hseed]
  rfl

theorem seed_deleteAll (tables : Tables) (stamps : List Stamp) :
    (tables.deleteAll stamps).seed = tables.seed := by
  rw [Tables.deleteAll]
  induction stamps generalizing tables with
  | nil => rfl
  | cons stamp stamps ih => exact ih (tables.delete stamp)

theorem sweep_tables {olderThan : Timestamp} {removed : Nat}
    (h : RecordStore.sweep s olderThan = .ok (removed, t)) :
    ∃ tables, t = s.withTables tables ∧ tables.seed = s.tables.seed := by
  cases h
  exact ⟨_, rfl, seed_deleteAll _ _⟩

end DurableStore

namespace CommandLine

open CacheLike

variable {around : Surroundings} {config : Config} {disk made after : Disk} {n : Opened}
  {tables : Tables} {scheme : SignatureScheme} {fresh : Seed} {stored left : List Record}

structure Opens (around : Surroundings) (config : Config) (disk made : Disk) (tables : Tables)
    (n : Opened) : Prop where
  ancestors : disk.ensureAncestors config.databasePath = (.ok (), made)
  read : readTables made config.databasePath = .ok tables
  opened : Node.opened around.scheme config tables around.fresh = .ok n

def Keeps (around : Surroundings) (config : Config) (disk : Disk) (stored : List Record) : Prop :=
  ∃ made tables n, Opens around config disk made tables n ∧ Lists n.store stored

theorem onNode_of_opens (h : Opens around config disk made tables n)
    (command : Opened → Outcome × Opened) :
    onNode around config disk command = ((command n).1,
      (made.write config.databasePath (command n).2.store.tables.image).toOption.getD made) := by
  rw [onNode, h.ancestors]
  simp only [h.read, Except.mapError, Except.bind, bind, h.opened]

theorem exists_opened (hvalid : config.validate = .ok ()) {s : DurableStore}
    (hseed : DurableStore.seedOr ⟨tables, config.capacity.toNat⟩ fresh = .ok (seed, s))
    (scheme : SignatureScheme) :
    ∃ m, Node.opened scheme config tables fresh = .ok m ∧ m.store = s := by
  refine ⟨.start config (scheme.keyText seed) s, ?_, rfl⟩
  rw [Node.opened, hvalid]
  simp only [bind, Except.bind, hseed]
  rfl

theorem exists_opened_empty (hvalid : config.validate = .ok ()) (scheme : SignatureScheme)
    (fresh : Seed) : ∃ m, Node.opened scheme config {} fresh = .ok m ∧
      m.store = ⟨{ seed := some fresh.octets }, config.capacity.toNat⟩ :=
  exists_opened hvalid rfl scheme

theorem opened_ok {scheme : SignatureScheme}
    (h : Node.opened scheme config tables fresh = .ok n) :
    config.validate = .ok () ∧ ∃ seed s,
      DurableStore.seedOr ⟨tables, config.capacity.toNat⟩ fresh = .ok (seed, s) ∧
        n = .start config (scheme.keyText seed) s := by
  rw [Node.opened] at h
  cases hvalid : config.validate with
  | error fault =>
      rw [hvalid] at h
      cases h
  | ok _ =>
      cases hseed : DurableStore.seedOr ⟨tables, config.capacity.toNat⟩ fresh with
      | error fault =>
          rw [hvalid] at h
          simp only [bind, Except.bind, hseed] at h
          cases h
      | ok pair =>
          rw [hvalid] at h
          simp only [bind, Except.bind, hseed] at h
          cases h
          exact ⟨rfl, _, _, rfl, rfl⟩

theorem readTables_of_write {content : Octets}
    (h : made.write config.databasePath content = .ok after) :
    readTables after config.databasePath =
      (Tables.ofImage? content).elim (.error (.database .notDatabase)) .ok := by
  rw [readTables, Disk.read_of_write h]

/-- Only where there was no database can it be that none can be written. -/
theorem tables_of_write_error {content : Octets} {fault : DiskFault}
    (hread : readTables made config.databasePath = .ok tables)
    (hwrite : made.write config.databasePath content = .error fault) : tables = {} := by
  rw [readTables] at hread
  split at hread
  · cases hread
    rfl
  · cases hread
  · obtain ⟨e, he⟩ := Disk.exists_write_ok ‹_› content
    rw [hwrite] at he
    cases he

theorem Lists.eq_nil (h : Lists n.store stored)
    (hopened : Node.opened scheme config {} fresh = .ok n) : stored = [] := by
  obtain ⟨-, seed, s, hseed, rfl⟩ := opened_ok hopened
  cases hseed
  have hsize : Except.ok 0 = .ok stored.length := h.holds.size
  exact List.eq_nil_of_length_eq_zero (Except.ok.inj hsize).symm

theorem keeps_of_write (h : Opens around config disk made tables n) {t : Tables}
    (ht : t.seed = n.store.tables.seed) (hleft : Lists (n.store.withTables t) left)
    (hwrite : made.write config.databasePath t.image = .ok after) (later : Surroundings) :
    Keeps later config after left := by
  obtain ⟨C, hshows, rfl⟩ := hleft
  obtain ⟨u, hread, hu, hshows'⟩ := DurableStore.shows_of_image hshows
  obtain ⟨hvalid, seed, s, hseed, rfl⟩ := opened_ok h.opened
  obtain ⟨hkept, hcapacity⟩ := DurableStore.seed_of_seedOr hseed
  have hseed' : DurableStore.seedOr ⟨u, config.capacity.toNat⟩ later.fresh =
      .ok (seed, ⟨u, config.capacity.toNat⟩) :=
    DurableStore.seedOr_of_kept (hu.trans (ht.trans hkept)) later.fresh
  obtain ⟨m, hopened, hm⟩ := exists_opened hvalid hseed' later.scheme
  have htables : readTables after config.databasePath = .ok u := by
    rw [readTables_of_write hwrite]
    exact congrArg (Option.elim · _ _) hread
  refine ⟨after, u, m, ⟨Disk.ensureAncestors_of_write h.ancestors hwrite, htables, hopened⟩,
    C, ?_, rfl⟩
  rw [hm, ← show s.capacity = config.capacity.toNat from hcapacity]
  exact hshows'

theorem keeps_nil (h : Opens around config disk made {} n) (later : Surroundings) :
    Keeps later config made [] := by
  obtain ⟨hvalid, -⟩ := opened_ok h.opened
  obtain ⟨m, hopened, hm⟩ := exists_opened_empty hvalid later.scheme later.fresh
  have hshows : shows m.store (Cache.empty config.capacity.toNat) := hm ▸
    DurableStore.shows_withSeed (lockstep.empty config.capacity.toNat) (some later.fresh.octets)
  exact ⟨made, {}, m, ⟨Disk.ensureAncestors_again h.ancestors, h.read, hopened⟩, _, hshows, rfl⟩

/-- What a command leaves in its store is what the next one finds. If it cannot be written then
there was no database, and nothing to be found. -/
theorem keeps_of_opens (h : Opens around config disk made tables n) (hstored : Lists n.store stored)
    {t : Tables} (ht : t.seed = n.store.tables.seed) (hleft : Lists (n.store.withTables t) left)
    (hsub : left ⊆ stored) (later : Surroundings) :
    Keeps later config ((made.write config.databasePath t.image).toOption.getD made) left := by
  cases hwrite : made.write config.databasePath t.image with
  | ok after => exact keeps_of_write h ht hleft hwrite later
  | error fault =>
      obtain rfl := tables_of_write_error h.read hwrite
      obtain rfl := Lists.eq_nil hstored h.opened
      obtain rfl := List.subset_nil.mp hsub
      exact keeps_nil h later

theorem sweep_ok (h : Keeps around config disk stored) (maxAge : Option UInt64) :
    ∃ after,
      runWith around config disk (.sweep maxAge) = (.lines ["Removed " ++
        toString (stored.countP (·.IsStale around.now (maxAge.getD config.staleAfterSecs))) ++
        " stale record(s)"], after) ∧
      ∀ later, Keeps later config after
        (stored.filter (¬·.IsStale around.now (maxAge.getD config.staleAfterSecs))) := by
  obtain ⟨made, tables, n, hopens, hstored⟩ := h
  have hconfig : n.config = config := by
    obtain ⟨-, seed, s, -, rfl⟩ := opened_ok hopens.opened
    rfl
  have hlimit : sweepBefore n around.now maxAge =
      around.now.before (.ofSpan (maxAge.getD config.staleAfterSecs).toNat 0) := by
    cases maxAge with
    | none => rw [sweepBefore, Node.staleBefore, Config.staleAfter, hconfig, Option.getD_none]
    | some seconds => rfl
  obtain ⟨s, hsweep, hleft⟩ := sweep_stale hstored around.now (maxAge.getD config.staleAfterSecs)
  obtain ⟨t, rfl, ht⟩ := DurableStore.sweep_tables hsweep
  refine ⟨_, ?_, keeps_of_opens hopens hstored ht hleft (List.filter_subset_self _)⟩
  rw [runWith, onNode_of_opens hopens, hlimit, hsweep]
  rfl

/-- Whatever the time and the age, a sweep of a node or of the command line removes exactly what was
last seen more than that age ago, as whole numbers have it, and tells how much that was. -/
theorem sweeps_stale :
    (∀ {σ : Type} [CacheLike σ] (n : Node σ) (stored : List Record) (now : Timestamp),
      Lists n.store stored →
        ∃ m, n.sweepStale now = .ok (stored.countP (·.IsStale now n.config.staleAfterSecs), m) ∧
          Lists m.store (stored.filter (¬·.IsStale now n.config.staleAfterSecs))) ∧
    ∀ (around : Surroundings) (config : Config) (disk : Disk) (stored : List Record)
      (maxAge : Option UInt64), Keeps around config disk stored →
        ∃ after,
          runWith around config disk (.sweep maxAge) = (.lines ["Removed " ++
            toString (stored.countP (·.IsStale around.now (maxAge.getD config.staleAfterSecs))) ++
            " stale record(s)"], after) ∧
          ∀ later, Keeps later config after
            (stored.filter (¬·.IsStale around.now (maxAge.getD config.staleAfterSecs))) :=
  ⟨fun _ _ now h => Node.sweepStale_ok h now, fun _ _ _ _ maxAge h => sweep_ok h maxAge⟩

def sighting (identity : String) (lastSeen : Timestamp) : Record :=
  { identity, publicKey := "k", lastSeen }

def sightings : List Call :=
  [.upsert (sighting "a" 10), .upsert (sighting "b" 20)]

def weekLater : Surroundings :=
  { scheme := ed25519, now := 604800020, fresh := ⟨List.replicate 32 7, rfl⟩ }

def sighted : List Record :=
  [sighting "b" 20, sighting "a" 10]

theorem lists_sighted {σ : Type} [CacheLike σ] {s : σ} (h : shows s (Cache.empty 2500)) :
    Lists (StoreKind.after s sightings) sighted := by
  have hone : ((Cache.empty 2500).put (sighting "a" 10)).entries = [sighting "a" 10] :=
    Cache.entries_put_of_later (by simp [Cache.empty])
  have htwo : (((Cache.empty 2500).put (sighting "a" 10)).put (sighting "b" 20)).entries =
      sighted := by
    rw [Cache.entries_put_of_later, hone]
    · rfl
    · rw [hone]
      decide
  exact ⟨_, lockstep.after h sightings, htwo⟩

theorem exists_keeps_sighted : ∃ disk, Keeps weekLater {} disk sighted := by
  let path : String := Config.databasePath {}
  have hmade : (({} : Disk).ensureAncestors path).1 = .ok () := by decide +kernel
  have hread : (({} : Disk).ensureAncestors path).2.read path = .error .notFound := by
    decide +kernel
  have hvalid : Config.validate {} = .ok () := by decide +kernel
  obtain ⟨n, hopened, hn⟩ := exists_opened_empty hvalid weekLater.scheme weekLater.fresh
  have hopens : Opens weekLater {} {} (({} : Disk).ensureAncestors path).2 {} n := by
    refine ⟨Prod.ext hmade rfl, ?_, hopened⟩
    rw [readTables, hread]
  have hshows : shows n.store (Cache.empty 2500) := hn ▸ DurableStore.shows_withSeed
    (lockstep.empty 2500) (some weekLater.fresh.octets)
  have hseed : (StoreKind.after n.store sightings).tables.seed = n.store.tables.seed := by
    rw [hn]
    rfl
  have hsame : n.store.withTables (StoreKind.after n.store sightings).tables =
      StoreKind.after n.store sightings := by
    rw [hn]
    rfl
  cases hwrite : (({} : Disk).ensureAncestors path).2.write path
      (StoreKind.after n.store sightings).tables.image with
  | ok disk =>
      exact ⟨disk, keeps_of_write hopens hseed (hsame ▸ lists_sighted hshows) hwrite weekLater⟩
  | error fault =>
      have hfails := Disk.write_error hwrite []
      have hwrites : ((({} : Disk).ensureAncestors path).2.write path []).isOk = true := by
        decide +kernel
      rw [hfails] at hwrites
      cases hwrites

/-- The default age just spares the later sighting, and the largest age spares both. -/
theorem sweeps_stale_sighted :
    (∃ m, (Node.start {} "k" (StoreKind.after (MemoryStore.empty 2500) sightings)).sweepStale
        weekLater.now = .ok (1, m) ∧ Lists m.store [sighting "b" 20]) ∧
    ∃ disk, Keeps weekLater {} disk sighted ∧
      (∃ after, runWith weekLater {} disk (.sweep none) =
          (.lines ["Removed 1 stale record(s)"], after) ∧
        Keeps weekLater {} after [sighting "b" 20]) ∧
      ∃ after, runWith weekLater {} disk (.sweep (some 18446744073709551615)) =
          (.lines ["Removed 0 stale record(s)"], after) ∧
        Keeps weekLater {} after sighted := by
  obtain ⟨disk, hdisk⟩ := exists_keeps_sighted
  obtain ⟨after, hrun, hkeeps⟩ := sweeps_stale.2 weekLater {} disk sighted none hdisk
  obtain ⟨after', hrun', hkeeps'⟩ :=
    sweeps_stale.2 weekLater {} disk sighted (some 18446744073709551615) hdisk
  exact ⟨sweeps_stale.1 (.start {} "k" _) sighted weekLater.now
      (lists_sighted (lockstep.empty 2500)),
    disk, hdisk, ⟨after, hrun, hkeeps weekLater⟩, after', hrun', hkeeps' weekLater⟩

end CommandLine

end PeerBook
