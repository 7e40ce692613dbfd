import IoController.Proofs.Disk.SectorsRead
import IoController.Proofs.Disk.Turns

/-!
# Disk — ReadingOn

A core that reads the sectors of a drive one after another finds every one but the first loaded.

* `Cache.Backs`: a drive of a known number of sectors.
* `Cache.Fetched`: sectors went through the cache in order, each of them read once.
  `Cache.Fetched.trans` goes on with the sector that is cached.
* `VirtualCard.ReadThrough`: the same over turns, each of them served.
* `VirtualCard.hits_reading_on`: over polls that ask for sectors in order each sector is read at
  most once, and is there before it is asked for.
-/

namespace IoController.Disk

open Device (Deed Does traces)

namespace Cache

variable {c c' : Cache} {drive : UInt8} {b : Backing} {n lba : UInt32} {i : Nat}

/-- How many sectors `drive` has, if that is known. -/
def size? (c : Cache) (drive : UInt8) : Option UInt32 :=
  match c.source? drive with
  | none => none
  | some .medium => if c.medium.sectors = 0 then none else some c.medium.sectors
  | some (.image image) => some image.sectorCount

/-- Behind `drive` is something that is stored in `b` and has `n` sectors. -/
def Backs (c : Cache) (drive : UInt8) (b : Backing) (n : UInt32) : Prop :=
  ∃ s, c.source? drive = some s ∧ s.backing = b ∧ ∀ lba, c.covers s lba = decide (lba < n)

/-- A `drive` whose size is known is backed by something. -/
theorem exists_backs (h : c.size? drive = some n) : ∃ b, c.Backs drive b n := by
  unfold size? at h
  cases hs : c.source? drive with
  | none =>
    rw [hs] at h
    cases h
  | some s =>
    refine ⟨s.backing, s, hs, rfl, fun lba => ?_⟩
    rw [hs] at h
    cases s with
    | image image =>
      obtain rfl := Option.some.inj h
      rfl
    | medium =>
      dsimp only at h
      split at h
      · cases h
      · next hknown =>
        obtain rfl := Option.some.inj h
        rw [covers, Medium.contains, beq_false_of_ne hknown, Bool.false_or]

/-! ### Reading -/

/-- The sectors of a drive from number `lo` to before `hi`, as far as there are, went through the
cache: each was read, but for the first if that was cached, and the last one is cached. -/
structure Fetched (c : Cache) (drive : UInt8) (b : Backing) (n : UInt32) (lo hi : Nat)
    (t : Trace Device) (c' : Cache) : Prop where
  backs : c'.Backs drive b n
  cached : c'.cached = some (drive, .ofNat (min hi n.toNat - 1))
  reads : ReadsJust t (sectors b n (if c.cached = some (drive, .ofNat lo) then lo + 1 else lo) hi)

section Fetched

variable {c'' : Cache} {t t' : Trace Device} {lo hi : Nat}

theorem Fetched.cached_of_lt (h : c.Fetched drive b n lo (i + 1) t c') (hn : i < n.toNat) :
    c'.cached = some (drive, .ofNat i) := by
  have hlast : min (i + 1) n.toNat - 1 = i := by omega
  rw [h.cached, hlast]

/-- Going on with the sector that is cached, number `i`. -/
theorem Fetched.trans (h : c.Fetched drive b n lo (i + 1) t c')
    (h' : c'.Fetched drive b n i hi t' c'') (hlo : lo ≤ i) (hi' : i < hi) (hn : i < n.toNat) :
    c.Fetched drive b n lo hi (t ++ t') c'' where
  backs := h'.backs
  cached := h'.cached
  reads := by
    have hnext := h'.reads
    rw [if_pos (h.cached_of_lt hn)] at hnext
    rw [← sectors_append (m := i + 1) (by split <;> omega) hi']
    exact h.reads.append hnext

/-- What happens `before` and `after`, without reading, does not count. -/
theorem Fetched.within {ds : List Deed} (before after : List Deed)
    (h : c.Fetched drive b n lo hi (traces ds) c')
    (hbefore : ∀ d ∈ before, isStorage d = false) (hafter : ∀ d ∈ after, isStorage d = false) :
    c.Fetched drive b n lo hi (traces (before ++ (ds ++ after))) c' where
  backs := h.backs
  cached := h.cached
  reads := by
    have hreads := (readsJust_of_idle hbefore).append (h.reads.append (readsJust_of_idle hafter))
    rw [← Device.traces_append, ← Device.traces_append, List.append_nil] at hreads
    exact hreads

end Fetched

/-- A sector was served from the cache: `hits` goes up by one, and `misses` stays. -/
def Hits (c c' : Cache) : Prop :=
  c'.stats.hits = c.stats.hits + 1 ∧ c'.stats.misses = c.stats.misses

theorem ofNat_lt_iff (hi : i ≤ n.toNat) : UInt32.ofNat i < n ↔ i < n.toNat := by
  have hn : n.toNat < UInt32.size := n.toNat_lt
  rw [UInt32.lt_iff_toNat_lt, UInt32.toNat_ofNat_of_lt' (by omega)]

/-- A sector that there is, is not the `reservedLba`. -/
theorem ofNat_ne_reserved (hi : i < n.toNat) : UInt32.ofNat i ≠ reservedLba := by
  intro heq
  have hlt := UInt32.lt_iff_toNat_lt.1 ((ofNat_lt_iff hi.le).2 hi)
  have hn := n.toNat_lt
  rw [heq] at hlt
  change 0xffffffff < n.toNat at hlt
  omega

theorem isSome_find?_iff : (c.find? drive lba).isSome ↔ c.cached = some (drive, lba) := by
  unfold find? cached
  cases c.entry with
  | none => simp
  | some e => by_cases hkey : e.drive = drive ∧ e.lba = lba <;> simp [hkey]

/-- A sector that there is, is read if nothing fails (`Faultless`), and from the cache if it is
there. -/
theorem does_readFaultless (h : c.Backs drive b n) (hi : i < n.toNat) :
    Does (c.read drive (.ofNat i)) fun ds p => Faultless (traces ds) →
      (∃ data, p.1 = .ok data) ∧ c.Fetched drive b n i (i + 1) (traces ds) p.2 ∧
        (c.cached = some (drive, .ofNat i) → c.Hits p.2) := by
  have hlast : min (i + 1) n.toNat - 1 = i := by omega
  obtain ⟨s, hs, rfl, hcovers⟩ := id h
  unfold read
  rw [hs]
  dsimp only
  rw [hcovers, if_pos (decide_eq_true ((ofNat_lt_iff hi.le).2 hi))]
  cases hfind : c.find? drive (.ofNat i) with
  | some data =>
    have hcached : c.cached = some (drive, .ofNat i) := by
      rw [← isSome_find?_iff, hfind]
      rfl
    refine .done fun _ => ⟨⟨data, rfl⟩, ⟨h, ?_, fun _ => ?_⟩, fun _ => ⟨rfl, rfl⟩⟩
    · rw [hlast]
      exact hcached
    · rw [if_pos hcached, sectors_none (by omega)]
      rfl
  | none =>
    have hcached : ¬ c.cached = some (drive, .ofNat i) := by
      rw [← isSome_find?_iff, hfind]
      exact Bool.false_ne_true
    refine (does_loadFaultless _ s drive (ofNat_ne_reserved hi)).mono fun ds p hloaded hsound => ?_
    obtain ⟨hreads, data, rfl⟩ := hloaded hsound
    refine ⟨⟨data, rfl⟩, ⟨h, ?_, ?_⟩, fun hhit => absurd hhit hcached⟩
    · rw [hlast]
      rfl
    · rw [if_neg hcached, sectors_single hi]
      exact hreads

/-- After a sector `i` that is cached the next one is, or the same if there is none. -/
theorem does_readAheadFaultless (h : c.Backs drive b n) (hi : i < n.toNat)
    (hcached : c.cached = some (drive, .ofNat i)) :
    Does (c.readAhead drive (.ofNat i)) fun ds p => Faultless (traces ds) →
      c.Fetched drive b n i (i + 2) (traces ds) p.2 ∧
        p.2.stats.hits = c.stats.hits ∧ p.2.stats.misses = c.stats.misses := by
  obtain ⟨s, hs, rfl, hcovers⟩ := id h
  unfold readAhead
  rw [hs]
  dsimp only
  have hnext : UInt32.ofNat i + 1 = .ofNat (i + 1) := by rw [UInt32.ofNat_add]; rfl
  rw [if_neg (ofNat_ne_reserved hi), hnext, hcovers, decide_eq_decide.2 (ofNat_lt_iff hi)]
  by_cases hlast : i + 1 < n.toNat
  · have hcount : min (i + 2) n.toNat - 1 = i + 1 := by omega
    rw [if_pos (decide_eq_true hlast)]
    refine .bind ((does_loadFaultless c s drive (ofNat_ne_reserved hlast)).mono
      fun ds p hloaded => ?_)
    obtain ⟨reply, c'⟩ := p
    cases reply with
    | error e =>
      refine .done fun hsound => ?_
      rw [List.append_nil] at hsound
      obtain ⟨-, data, hdata⟩ := hloaded hsound
      cases (Prod.mk.inj hdata).1
    | ok data =>
      refine .done fun hsound => ?_
      rw [List.append_nil] at hsound ⊢
      obtain ⟨hreads, data, hdata⟩ := hloaded hsound
      obtain ⟨-, rfl⟩ := Prod.mk.inj hdata
      refine ⟨⟨h, ?_, ?_⟩, rfl, rfl⟩
      · rw [hcount]
        rfl
      · rw [if_pos hcached, sectors_single hlast]
        exact hreads
  · have hcount : min (i + 2) n.toNat - 1 = i := by omega
    rw [if_neg (by rw [decide_eq_true_iff]; exact hlast)]
    refine .done fun _ => ⟨⟨h, ?_, fun _ => ?_⟩, rfl, rfl⟩
    · rw [hcount]
      exact hcached
    · rw [if_pos hcached, sectors_none (by omega)]
      rfl

end Cache

namespace VirtualCard

variable {c : Cache} {v v' : VirtualCard} {drive : UInt8} {b : Backing} {n : UInt32} {i : Nat}

/-- Sector number `i` was served, and the next one fetched if there is one. -/
structure ReadsOn (c : Cache) (drive : UInt8) (b : Backing) (n : UInt32) (i : Nat)
    (t : Trace Device) (p : Outcome × Cache) : Prop where
  served : p.1 = .read drive (.ofNat i)
  fetched : c.Fetched drive b n i (i + 2) t p.2
  hits : c.cached = some (drive, .ofNat i) → c.Hits p.2

/-- What happens `before` and `after`, without reading, does not count. -/
theorem ReadsOn.within {ds : List Deed} {p : Outcome × Cache} (before after : List Deed)
    (h : ReadsOn c drive b n i (traces ds) p) (hbefore : ∀ d ∈ before, Cache.isStorage d = false)
    (hafter : ∀ d ∈ after, Cache.isStorage d = false) :
    ReadsOn c drive b n i (traces (before ++ (ds ++ after))) p where
  served := h.served
  fetched := h.fetched.within before after hbefore hafter
  hits := h.hits

theorem does_serveReadFaultless (h : c.Backs drive b n) (hi : i < n.toNat) :
    Does (serveRead c drive (.ofNat i)) fun ds p => Faultless (traces ds) →
      ReadsOn c drive b n i (traces ds) p := by
  refine (does_withLight (Q := fun ds p => Faultless (traces ds) →
    ReadsOn c drive b n i (traces ds) p)
      (.bind ((c.does_readFaultless h hi).mono fun ds p hread => ?_))).mono
        fun ds p hlit hsound => ?_
  · obtain ⟨reply, c'⟩ := p
    cases reply with
    | error e =>
      refine .done fun hsound => ?_
      rw [List.append_nil] at hsound
      obtain ⟨⟨data, hdata⟩, -⟩ := hread hsound
      cases hdata
    | ok data =>
      refine .bind ((Device.does_command _ _).mono fun sent _ hsent => ?_)
      obtain ⟨bytes, rfl, -⟩ := hsent
      by_cases hsound : Faultless (traces ds)
      · obtain ⟨-, hfetched, hhits⟩ := hread hsound
        have hcached := hfetched.cached_of_lt hi
        refine .bind ((Cache.does_readAheadFaultless hfetched.backs hi hcached).mono
          fun ahead p hahead => .done fun hall => ?_)
        rw [Device.traces_append, faultless_append_iff] at hall
        obtain ⟨hahead, hsame, hsame'⟩ := hahead (hall.2.within [_] [])
        refine ⟨rfl, ?_, fun hhit => ?_⟩
        · rw [Device.traces_append]
          exact hfetched.trans (hahead.within _ _ (List.forall_mem_singleton.2 rfl)
            (List.forall_mem_nil _)) le_rfl (by omega) hi
        · exact ⟨hsame.trans (hhits hhit).1, hsame'.trans (hhits hhit).2⟩
      · refine .bind ((c'.does_readAhead drive _).mono fun ahead p _ => .done fun hall => ?_)
        rw [Device.traces_append, faultless_append_iff] at hall
        exact absurd hall.1 hsound
  · obtain ⟨ds, rfl, hbody⟩ := hlit
    exact (hbody (hsound.within [light true] [light false])).within _ _
      (List.forall_mem_singleton.2 rfl) (List.forall_mem_singleton.2 rfl)

/-- The request `r` is served as it should be, if it is for a sector that there is. -/
theorem does_serveFaultless (h : c.Backs drive b n) (hi : i < n.toNat) (r : Request) :
    Does (serve c r) fun ds p => r.access = .read → r.drive = drive → r.lba = .ofNat i →
      Faultless (traces ds) → ReadsOn c drive b n i (traces ds) p := by
  by_cases hread : r.access = .read ∧ r.drive = drive ∧ r.lba = .ofNat i
  · obtain ⟨haccess, rfl, hlba⟩ := hread
    unfold serve
    rw [haccess, hlba]
    exact (does_serveReadFaultless h hi).mono fun ds p hserved _ _ _ => hserved
  · exact (does_serve c r).mono fun ds p _ haccess hdrive hlba =>
      absurd ⟨haccess, hdrive, hlba⟩ hread

theorem Serves.of_none {r : Request} {ds : List Deed} {p : Outcome × Cache} (h : Serves c r ds p)
    (hnone : r.access = .none) : ds = [] ∧ p.2 = c := by
  have hbits : r.status.toNat % 4 ≠ 2 ∧ r.status.toNat % 4 ≠ 1 := by
    rw [r.access_eq] at hnone
    split_ifs at hnone with hwrite hread
    exact ⟨hwrite, hread⟩
  cases h with
  | none bits => exact ⟨rfl, rfl⟩
  | written bits written => exact absurd bits hbits.1
  | notWritten bits written => exact absurd bits hbits.1
  | read bits read sent readAhead => exact absurd bits hbits.2
  | notRead bits read => exact absurd bits hbits.2

/-- To send the registers (`Configures`) asks nothing that stores sectors. -/
theorem Configures.not_isStorage {medium : Medium} {r : Request} {ds : List Deed}
    (h : Configures medium r ds) : ∀ d ∈ ds, Cache.isStorage d = false := by
  cases h with
  | asked bit sent => exact List.forall_mem_singleton.2 rfl
  | unasked bit => exact List.forall_mem_nil _

theorem warning_not_isStorage (v : VirtualCard) (r : Request) :
    ∀ d ∈ v.warning r, Cache.isStorage d = false := by
  unfold warning
  split
  · exact List.forall_mem_singleton.2 rfl
  · exact List.forall_mem_nil _

/-- What a poll does before it serves an access reads no sector (`isStorage`). -/
theorem preamble_not_isStorage {bytes : List (UInt8 × UInt8)} {r : Request} {sent : List Deed}
    (v : VirtualCard) (h : Configures v.cache.medium r sent) :
    ∀ d ∈ .frame .io bytes :: (sent ++ v.warning r), Cache.isStorage d = false :=
  List.forall_mem_cons.2 ⟨rfl, List.forall_mem_append.2
    ⟨h.not_isStorage, warning_not_isStorage v r⟩⟩

end VirtualCard

/-- The access of the request `r` that a core waits for, if it waits for one. -/
def Request.pending? (r : Request) : Option (Access × UInt8 × UInt32) :=
  if r.isValid ∧ r.access ≠ .none then some (r.access, r.drive, r.lba) else none

namespace VirtualCard

variable {v v' : VirtualCard} {drive : UInt8} {b : Backing} {n : UInt32} {i : Nat}

namespace Turn

variable {turn : Turn}

/-- The access that the core asked for in the `turn`, if it was polled and wanted one. -/
def access? (turn : Turn) : Option (Access × UInt8 × UInt32) := turn.request?.bind (·.pending?)

/-- Without an `access?` nothing happens to the cache. -/
theorem Ran.rests (h : turn.Ran) (hcall : turn.call = .poll) (hnone : turn.access? = none) :
    turn.after.cache = turn.before.cache ∧ ReadsJust turn.trace [] := by
  cases h.goes with
  | mount mounts => cases hcall
  | unmount unmounts => cases hcall
  | poll polls =>
    cases polls with
    | idle status high => exact ⟨rfl, readsJust_of_idle (List.forall_mem_singleton.2 rfl)⟩
    | @request bytes r sent served outcome c status high configures serves =>
      rw [access?, request?_of_status status, Option.bind_some, Request.pending?] at hnone
      have haccess : r.access = .none := by
        by_contra hsome
        rw [if_pos ⟨r.isValid_iff.2 high, hsome⟩] at hnone
        cases hnone
      obtain ⟨rfl, hcache⟩ := serves.of_none haccess
      refine ⟨hcache, ?_⟩
      rw [List.append_nil]
      exact readsJust_of_idle (preamble_not_isStorage _ configures)

/-- A sector `i` that there is and is asked for is served, and the next one fetched. -/
theorem Ran.readsOn (h : turn.Ran) (hcall : turn.call = .poll)
    (hask : turn.access? = some (.read, drive, .ofNat i))
    (hbacks : turn.before.cache.Backs drive b n) (hi : i < n.toNat)
    (hsound : Faultless turn.trace) :
    ∃ outcome, turn.outcome? = some outcome ∧
      ReadsOn turn.before.cache drive b n i turn.trace (outcome, turn.after.cache) := by
  obtain ⟨v, call, t, outcome, v'⟩ := turn
  cases hcall
  have hpoll : Does v.poll _ := does_pollBy (does_serveFaultless hbacks hi)
  obtain ⟨ds, ht, hpolls⟩ : ∃ ds, t = traces ds ∧ _ := hpoll t (outcome, v') h
  subst ht
  cases hpolls with
  | idle status high =>
    rw [access?, request?_of_status status, Option.bind_some, Request.pending?,
      if_neg fun hvalid => (Request.isValid_iff _).1 hvalid.1 |>.elim high.1 high.2] at hask
    cases hask
  | @request bytes r sent served _ c status high configures serving =>
    rw [access?, request?_of_status status, Option.bind_some, Request.pending?] at hask
    obtain ⟨haccess, hdrive, hlba⟩ : r.access = .read ∧ r.drive = drive ∧ r.lba = .ofNat i := by
      split at hask
      · simpa using hask
      · cases hask
    have hdeeds : Deed.frame .io bytes :: (sent ++ (v.warning r ++ served)) =
        (.frame .io bytes :: (sent ++ v.warning r)) ++ (served ++ []) := by
      simp
    rw [hdeeds] at hsound ⊢
    exact ⟨_, rfl, (serving haccess hdrive hlba (hsound.within _ _)).within _ _
      (preamble_not_isStorage _ configures) (List.forall_mem_nil _)⟩

end Turn

/-! ### Turn after turn -/

variable {turns : List Turn} {s m : Nat}

/-- Those of `turns` in which the core asked for an access. -/
def asking (turns : List Turn) : List Turn := turns.filter (·.access?.isSome)

/-- Reads of `count` sectors one after another, from number `s`. -/
def readsFrom (drive : UInt8) (s count : Nat) : List (Access × UInt8 × UInt32) :=
  (List.range' s count).map fun i => (.read, drive, .ofNat i)

theorem readsFrom_succ (drive : UInt8) (s count : Nat) :
    readsFrom drive s (count + 1) = (.read, drive, .ofNat s) :: readsFrom drive (s + 1) count :=
  rfl

/-- Over turns without an `access?` nothing happens to the cache. -/
theorem Lives.rests (h : Lives v turns v') (hpolls : ∀ turn ∈ turns, turn.call = .poll)
    (hnone : ∀ turn ∈ turns, turn.access? = none) :
    v'.cache = v.cache ∧ ReadsJust (turns.flatMap (·.trace)) [] := by
  induction h with
  | nil v => exact ⟨rfl, fun _ => rfl⟩
  | @cons turn turns v' ran rest ih =>
    rw [List.forall_mem_cons] at hpolls hnone
    obtain ⟨hcache, hreads⟩ := ran.rests hpolls.1 hnone.1
    obtain ⟨hcache', hreads'⟩ := ih hpolls.2 hnone.2
    exact ⟨hcache'.trans hcache, hreads.append hreads'⟩

/-- Sectors from number `s` to number `s + m` were asked for, and went through the cache. -/
structure ReadThrough (v : VirtualCard) (turns : List Turn) (v' : VirtualCard) (drive : UInt8)
    (b : Backing) (n : UInt32) (s m : Nat) : Prop where
  fetched : v.cache.Fetched drive b n s (s + m + 2) (turns.flatMap (·.trace)) v'.cache
  served {turn : Turn} {lba : UInt32} (mem : turn ∈ turns)
    (asked : turn.access? = some (.read, drive, lba)) : turn.outcome? = some (.read drive lba)
  -- the first sector is a hit only if it was cached before
  hits : ∀ turn ∈ (asking turns).drop (if v.cache.cached = some (drive, .ofNat s) then 0 else 1),
    turn.before.cache.Hits turn.after.cache

section ReadThrough

variable {w : VirtualCard} {past rest : List Turn}

theorem asking_append (past rest : List Turn) :
    asking (past ++ rest) = asking past ++ asking rest := List.filter_append ..

theorem asking_of_none (hnone : ∀ turn ∈ turns, turn.access? = none) : asking turns = [] := by
  refine List.filter_eq_nil_iff.2 fun turn hturn => ?_
  rw [hnone turn hturn]
  exact Bool.false_ne_true

/-- The sector `s` that was fetched last is the next one to be asked for. -/
theorem ReadThrough.append (h : ReadThrough v past w drive b n s 0)
    (h' : ReadThrough w rest v' drive b n (s + 1) m) (hn : s + 1 < n.toNat) :
    ReadThrough v (past ++ rest) v' drive b n s (m + 1) where
  fetched := by
    have hend : s + 1 + m + 2 = s + (m + 1) + 2 := by omega
    rw [List.flatMap_append, ← hend]
    exact h.fetched.trans h'.fetched (by omega) (by omega) hn
  served := by
    intro turn lba hmem hasked
    rcases List.mem_append.1 hmem with hmem | hmem
    · exact h.served hmem hasked
    · exact h'.served hmem hasked
  hits := by
    have hrest := h'.hits
    rw [if_pos (h.fetched.cached_of_lt hn)] at hrest
    intro turn hmem
    rw [asking_append, List.drop_append, List.mem_append] at hmem
    exact hmem.elim (h.hits turn) fun hmem => hrest turn (List.mem_of_mem_drop hmem)

/-- Turns in which nothing is asked for (`access?`) change nothing. -/
theorem ReadThrough.rests (h : ReadThrough v past w drive b n s m) (hrest : Lives w rest v')
    (hpolls : ∀ turn ∈ rest, turn.call = .poll) (hnone : ∀ turn ∈ rest, turn.access? = none) :
    ReadThrough v (past ++ rest) v' drive b n s m := by
  obtain ⟨hcache, hreads⟩ := hrest.rests hpolls hnone
  refine ⟨⟨?_, ?_, ?_⟩, ?_, ?_⟩
  · rw [hcache]
    exact h.fetched.backs
  · rw [hcache]
    exact h.fetched.cached
  · have hall := h.fetched.reads.append hreads
    rwa [List.append_nil, ← List.flatMap_append] at hall
  · intro turn lba hmem hasked
    rcases List.mem_append.1 hmem with hmem | hmem
    · exact h.served hmem hasked
    · rw [hnone turn hmem] at hasked
      cases hasked
  · rw [asking_append, asking_of_none hnone, List.append_nil]
    exact h.hits

/-- Turns in which nothing is asked for (`access?`) may come first. -/
theorem ReadThrough.after_rests (h : ReadThrough w turns v' drive b n s m) (hpast : Lives v past w)
    (hpolls : ∀ turn ∈ past, turn.call = .poll) (hnone : ∀ turn ∈ past, turn.access? = none) :
    ReadThrough v (past ++ turns) v' drive b n s m := by
  obtain ⟨hcache, hreads⟩ := hpast.rests hpolls hnone
  obtain ⟨⟨hbacks, hcached, hreads'⟩, hserved, hhits⟩ := h
  rw [hcache] at hreads' hhits
  refine ⟨⟨hbacks, hcached, ?_⟩, ?_, ?_⟩
  · rw [List.flatMap_append]
    exact hreads.append hreads'
  · intro turn lba hmem hasked
    rcases List.mem_append.1 hmem with hmem | hmem
    · rw [hnone turn hmem] at hasked
      cases hasked
    · exact hserved hmem hasked
  · rw [asking_append, asking_of_none hnone, List.nil_append]
    exact hhits

end ReadThrough

/-- One sector `s` that is asked for goes through the cache. -/
theorem Turn.Ran.readThrough {turn : Turn} (h : turn.Ran) (hcall : turn.call = .poll)
    (hsound : Faultless turn.trace) (hbacks : turn.before.cache.Backs drive b n)
    (hn : s < n.toNat) (hasked : turn.access? = some (.read, drive, .ofNat s)) :
    ReadThrough turn.before [turn] turn.after drive b n s 0 := by
  obtain ⟨_, houtcome, rfl, hfetched, hhits⟩ := h.readsOn hcall hasked hbacks hn hsound
  refine ⟨?_, ?_, ?_⟩
  · rwa [List.flatMap_singleton]
  · intro other lba hmem hother
    obtain rfl := List.mem_singleton.1 hmem
    rw [hasked] at hother
    cases hother
    exact houtcome
  · have hasking : asking [turn] = [turn] := List.filter_cons_of_pos (by rw [hasked]; rfl)
    rw [hasking]
    intro other hmem
    split at hmem
    · next hcached =>
      obtain rfl := List.mem_singleton.1 hmem
      exact hhits hcached
    · cases hmem

/-- The first of the sectors, and what is still to come, `later`. -/
theorem Lives.readFirst {later : List (Access × UInt8 × UInt32)} (h : Lives v turns v')
    (hpolls : ∀ turn ∈ turns, turn.call = .poll) (hsound : ∀ turn ∈ turns, Faultless turn.trace)
    (hbacks : v.cache.Backs drive b n) (hn : s < n.toNat)
    (hasked : turns.filterMap Turn.access? = (.read, drive, .ofNat s) :: later) :
    ∃ past rest w, turns = past ++ rest ∧ ReadThrough v past w drive b n s 0 ∧ Lives w rest v' ∧
      rest.filterMap Turn.access? = later := by
  obtain ⟨calm, first, rest, rfl, hcalm, hfirst, hlater⟩ := List.filterMap_eq_cons_iff.1 hasked
  obtain ⟨hpast, ran, hrest⟩ := h.cut
  rw [List.forall_mem_append, List.forall_mem_cons] at hpolls hsound
  rw [← (hpast.rests hpolls.1 hcalm).1] at hbacks
  have hone := ran.readThrough hpolls.2.1 hsound.2.1 hbacks hn hfirst
  exact ⟨calm ++ [first], rest, first.after, by simp, hone.after_rests hpast hpolls.1 hcalm, hrest,
    hlater⟩

/-- All `m + 1` sectors that are asked for go through the cache. -/
theorem Lives.readThrough (h : Lives v turns v') (hpolls : ∀ turn ∈ turns, turn.call = .poll)
    (hsound : ∀ turn ∈ turns, Faultless turn.trace) (hbacks : v.cache.Backs drive b n)
    (hn : s + m < n.toNat) (hasked : turns.filterMap Turn.access? = readsFrom drive s (m + 1)) :
    ReadThrough v turns v' drive b n s m := by
  induction m generalizing v turns s with
  | zero =>
    obtain ⟨past, rest, w, rfl, hpast, hrest, hlater⟩ :=
      h.readFirst hpolls hsound hbacks hn (hasked.trans (readsFrom_succ ..))
    refine hpast.rests hrest (fun turn hturn => hpolls turn (List.mem_append_right _ hturn)) ?_
    exact List.filterMap_eq_nil_iff.1 hlater
  | succ m ih =>
    obtain ⟨past, rest, w, rfl, hpast, hrest, hlater⟩ :=
      h.readFirst hpolls hsound hbacks (by omega) (hasked.trans (readsFrom_succ ..))
    rw [List.forall_mem_append] at hpolls hsound
    exact hpast.append (ih hrest hpolls.2 hsound.2 hpast.fetched.backs (by omega) hlater) (by omega)

/-- **Reading on.**  A core asks for `m + 1` sectors of a drive one after another, by `readsFrom`,
in whatever state the cache is, perhaps with polls in between in which it wants nothing, and no read
fails (`Faultless`).  Every one of them is served, and every one but the first from the cache
(`Hits`).  Of `sectorsRead` none is there twice, and beyond those that were asked for there is at
most one.  In the end the sector after the last one is `cached`, or the last one if it is the last
of the drive. -/
theorem hits_reading_on (h : Lives v turns v') (hpolls : ∀ turn ∈ turns, turn.call = .poll)
    (hsound : ∀ turn ∈ turns, Faultless turn.trace) (hsize : v.cache.size? drive = some n)
    (hn : s + m < n.toNat) (hasked : turns.filterMap Turn.access? = readsFrom drive s (m + 1)) :
    (∀ turn ∈ turns, ∀ lba, turn.access? = some (.read, drive, lba) →
      turn.outcome? = some (.read drive lba)) ∧
    (∀ turn ∈ (asking turns).tail, turn.before.cache.Hits turn.after.cache) ∧
    (∀ position, (sectorsRead position (turns.flatMap (·.trace))).length ≤ m + 2 ∧
      (sectorsRead position (turns.flatMap (·.trace))).Nodup) ∧
    v'.cache.cached =
      some (drive, .ofNat (if s + m + 1 < n.toNat then s + m + 1 else s + m)) := by
  obtain ⟨b, hbacks⟩ := Cache.exists_backs hsize
  obtain ⟨hfetched, hserved, hhits⟩ := h.readThrough hpolls hsound hbacks hn hasked
  refine ⟨fun turn hmem lba => hserved hmem, fun turn hmem => hhits turn ?_, fun position => ?_,
    ?_⟩
  · split
    · exact List.mem_of_mem_tail hmem
    · rwa [List.drop_one]
  · rw [hfetched.reads position]
    refine ⟨(length_sectors_le ..).trans ?_, nodup_sectors ..⟩
    split <;> omega
  · have hlast : min (s + m + 2) n.toNat - 1 =
        if s + m + 1 < n.toNat then s + m + 1 else s + m := by
      split <;> omega
    rw [hfetched.cached, hlast]

/-- A `medium` of four sectors, with a sector of the other drive in the `cache`. -/
def fourSectors : VirtualCard :=
  { cache := { medium := ⟨4, false⟩, entry := some ⟨1, 2, .replicate _ 0⟩ } }

/-- Surroundings in which the core sends the bytes of a script, and then zeros. -/
def coreSaying : Bytes → (r : Device.Request) → Device.Reply r × Bytes
  | bytes, .link (.transfer _) => (bytes.headD 0, bytes.tail)
  | bytes, r => (Device.replying (fun _ => 0) none (.ok (.replicate _ 0)) r, bytes)

/-- The core asks for sector 2, for nothing, and for sector 3. -/
def readingLife : List Turn × VirtualCard :=
  fourSectors.play coreSaying
    [(.poll, [0, 0x61, 0, 0, 0, 0, 2]), (.poll, []), (.poll, [0, 0x61, 0, 0, 0, 0, 3])]

/-- In `readingLife` the last sector of the drive is there when it is asked for, and stays. -/
theorem hits_reading_on_end :
    (∀ turn ∈ (asking readingLife.1).tail, turn.before.cache.Hits turn.after.cache) ∧
      readingLife.2.cache.cached = some (0, 3) := by
  have hlives : Lives fourSectors readingLife.1 readingLife.2 := lives_play ..
  have hpolls : ∀ turn ∈ readingLife.1, turn.call = .poll := by
    intro turn hturn
    have hcall := List.mem_map_of_mem (f := Turn.call) hturn
    rw [readingLife, play_calls] at hcall
    simpa using hcall
  have hsound : ∀ turn ∈ readingLife.1, Faultless turn.trace := by decide +kernel
  have hasked : readingLife.1.filterMap Turn.access? = readsFrom 0 2 (1 + 1) := by decide +kernel
  obtain ⟨-, hhits, -, hcached⟩ :=
    hits_reading_on hlives hpolls hsound (n := 4) rfl (by decide) hasked
  exact ⟨hhits, hcached⟩

end VirtualCard

end IoController.Disk
