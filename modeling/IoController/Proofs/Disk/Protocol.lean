import IoController.Disk.VirtualCard
import IoController.Proofs.Device.Vocabulary
import IoController.Proofs.Disk.Bounds
import IoController.Proofs.Disk.Coherence
import Mathlib.Data.List.Basic

/-!
# Disk — Protocol

One poll of the emulated card, as the core, the host and what stores the sectors see it.

* `StatusFrame`: the question what the core wants, with the answer in it.
* `Cache.HasRead`, `Cache.HasReadAhead`, `Cache.HasWritten`: an access to a sector, with what it
  asks for and what it comes to in a world of stored sectors.
* `VirtualCard.Polls`: all that a poll may do.  `VirtualCard.does_pollBy`: what is known of how an
  access is served is known of a poll.
* `VirtualCard.poll_protocol`: a poll does nothing else, and where it serves an access the disk
  light goes on once and then off once.
-/

namespace IoController

open Device (Deed Does traces)

/-! ### The status -/

/-- A byte `b` that is put below a word `w` of three bytes. -/
theorem Bytes.toNat_push (w : UInt32) (b : UInt8) (hw : w.toNat < 0x1000000) :
    ((w <<< 8) ||| b.toUInt32).toNat = w.toNat * 256 + b.toNat := by
  have hb : b.toNat < 2 ^ 8 := b.toNat_lt
  have hshift : (w <<< 8).toNat = 2 ^ 8 * w.toNat := by
    rw [UInt32.toNat_shiftLeft]
    simp only [UInt32.reduceToNat, Nat.reduceMod, Nat.shiftLeft_eq]
    omega
  rw [UInt32.toNat_or, hshift, UInt8.toNat_toUInt32, ← Nat.two_pow_add_eq_or_of_lt hb]
  omega

/-- The number whose bytes are these, highest first. -/
theorem Bytes.toNat_ofBigEndian (b₃ b₂ b₁ b₀ : UInt8) :
    (Bytes.ofBigEndian [b₃, b₂, b₁, b₀]).toNat =
      ((b₃.toNat * 256 + b₂.toNat) * 256 + b₁.toNat) * 256 + b₀.toNat := by
  have h₃ := b₃.toNat_lt
  have h₂ := b₂.toNat_lt
  have h₁ := b₁.toNat_lt
  have hfirst : (Bytes.ofBigEndian [b₃]).toNat = 0 * 256 + b₃.toNat :=
    Bytes.toNat_push 0 b₃ (by decide)
  have hsecond : (Bytes.ofBigEndian [b₃, b₂]).toNat = _ * 256 + b₂.toNat :=
    Bytes.toNat_push (Bytes.ofBigEndian [b₃]) b₂ (by omega)
  have hthird : (Bytes.ofBigEndian [b₃, b₂, b₁]).toNat = _ * 256 + b₁.toNat :=
    Bytes.toNat_push (Bytes.ofBigEndian [b₃, b₂]) b₁ (by omega)
  have hlast : (Bytes.ofBigEndian [b₃, b₂, b₁, b₀]).toNat = _ * 256 + b₀.toNat :=
    Bytes.toNat_push (Bytes.ofBigEndian [b₃, b₂, b₁]) b₀ (by omega)
  rw [hlast, hthird, hsecond, hfirst, Nat.zero_mul, Nat.zero_add]

namespace Disk

/-- The frame that asks what the core wants, as the bytes sent and the bytes that came back, and
what the core wants.  The newer protocol, with a 6 in the high half of the `status`, names the
drive. -/
inductive StatusFrame : List (UInt8 × UInt8) → Request → Prop where
  | newer {echo drive b₃ b₂ b₁ b₀ : UInt8} {r : Request} (high : r.status.toNat / 16 = 6)
      (drive_eq : r.drive.toNat = drive.toNat % 2)
      (lba_eq : r.lba.toNat = ((b₃.toNat * 256 + b₂.toNat) * 256 + b₁.toNat) * 256 + b₀.toNat) :
      StatusFrame
        [(0x16, echo), (0, r.status), (0, drive), (0, b₃), (0, b₂), (0, b₁), (0, b₀)] r
  | older {echo b₃ b₂ b₁ b₀ : UInt8} {r : Request} (high : r.status.toNat / 16 ≠ 6)
      (drive_eq : r.drive = 0)
      (lba_eq : r.lba.toNat = ((b₃.toNat * 256 + b₂.toNat) * 256 + b₁.toNat) * 256 + b₀.toNat) :
      StatusFrame [(0x16, echo), (0, r.status), (0, b₃), (0, b₂), (0, b₁), (0, b₀)] r

/-! The bits of the status, over all the bytes that there are. -/

theorem high_eq_iff (b : UInt8) : b &&& 0xf0 = 0x60 ↔ b.toNat / 16 = 6 :=
  (by decide +kernel : ∀ i : Fin 256, UInt8.ofFin i &&& 0xf0 = 0x60 ↔ i.val / 16 = 6) b.toFin

namespace Request

variable (r : Request)

/-- A request has a 5 or a 6 in the high half of its status. -/
theorem isValid_iff : r.isValid = true ↔ r.status.toNat / 16 = 5 ∨ r.status.toNat / 16 = 6 :=
  (by decide +kernel : ∀ i : Fin 256,
    (⟨.ofFin i, 0, 0⟩ : Request).isValid = true ↔ i.val / 16 = 5 ∨ i.val / 16 = 6) r.status.toFin

theorem asksForConfig_iff : r.flags.has .config = true ↔ r.status.toNat / 8 % 2 = 1 :=
  (by decide +kernel : ∀ i : Fin 256,
    (⟨.ofFin i, 0, 0⟩ : Request).flags.has .config = true ↔ i.val / 8 % 2 = 1) r.status.toFin

theorem access_eq : r.access =
    if r.status.toNat % 4 = 2 then .write else if r.status.toNat % 4 = 1 then .read else .none :=
  (by decide +kernel : ∀ i : Fin 256, (⟨.ofFin i, 0, 0⟩ : Request).access =
    if i.val % 4 = 2 then .write else if i.val % 4 = 1 then .read else .none) r.status.toFin

end Request

/-- The number of the sector, `lba`, is the last four bytes of the answer. -/
theorem clocks_lba (status drive : UInt8) :
    Device.Clocks (do
      let lba ← Link.receiveBytes 4
      pure (⟨status, drive, Bytes.ofBigEndian lba.toList⟩ : Request))
    fun bytes r => ∃ b₃ b₂ b₁ b₀ : UInt8, bytes = [(0, b₃), (0, b₂), (0, b₁), (0, b₀)] ∧
      r.status = status ∧ r.drive = drive ∧
      r.lba.toNat = ((b₃.toNat * 256 + b₂.toNat) * 256 + b₁.toNat) * 256 + b₀.toNat := by
  refine .bind ((Device.clocks_receiveBytes 4).mono fun bytes lba hbytes => .done ?_)
  obtain ⟨b₃, b₂, b₁, b₀, hlba⟩ := List.length_eq_four.1 lba.length_toList
  rw [hbytes, hlba]
  exact ⟨b₃, b₂, b₁, b₀, rfl, rfl, rfl, Bytes.toNat_ofBigEndian b₃ b₂ b₁ b₀⟩

/-- The status is asked for in one frame. -/
theorem does_sdStatus :
    Does Link.sdStatus fun ds r => ∃ bytes, ds = [.frame .io bytes] ∧ StatusFrame bytes r := by
  refine (Device.does_query Link.Opcode.sdStatus (Q := fun bytes r =>
    ∀ echo, StatusFrame ((0x16, echo) :: bytes) r) ?_).mono fun ds r hquery => ?_
  · refine .bind ((Device.clocks_transfer 0x00).mono fun bytes status hstatus => ?_)
    rw [hstatus]
    -- only the newer protocol has a byte for the drive between the status and the sector
    by_cases hhigh : status &&& 0xf0 = 0x60
    · rw [if_pos (beq_iff_eq.2 hhigh), map_eq_pure_bind]
      refine .bind (.bind ((Device.clocks_transfer 0x00).mono fun bytes drive hdrive => .done ?_))
      refine (clocks_lba status (drive &&& 0x01)).mono fun bytes r hlba echo => ?_
      obtain ⟨b₃, b₂, b₁, b₀, rfl, rfl, hmasked, hword⟩ := hlba
      rw [hdrive]
      refine .newer ((high_eq_iff _).1 hhigh) ?_ hword
      rw [hmasked, UInt8.toNat_and]
      exact Nat.and_one_is_mod _
    · rw [if_neg (mt beq_iff_eq.1 hhigh)]
      refine .bind (.done ?_)
      refine (clocks_lba status 0).mono fun bytes r hlba echo => ?_
      obtain ⟨b₃, b₂, b₁, b₀, rfl, rfl, hnone, hword⟩ := hlba
      exact .older (mt (high_eq_iff _).2 hhigh) hnone hword
  · obtain ⟨echo, bytes, rfl, hframe⟩ := hquery
    exact ⟨_, rfl, hframe echo⟩

/-! ### Accesses -/

namespace Cache

variable (c : Cache) (drive : UInt8) (lba : UInt32)

/-- A sector was read: only what a read asks for was asked (`Reads`), and what came of it is what is
stored. -/
structure HasRead (ds : List Deed) (reply : Except Error Sector) (c' : Cache) : Prop where
  asks : c.Reads drive lba ds reply
  answers {stores : Stores} {w w' : World} : c.Coherent w →
    Trace.Along (World.Step stores) (traces ds) w w' →
      (c.plain w).Answers drive lba reply ∧ c'.plain w' = c.plain w ∧ c'.Coherent w'

/-- The sector after `lba` was loaded, or not, and nothing that is stored changed. -/
structure HasReadAhead (ds : List Deed) (loaded : Bool) (c' : Cache) : Prop where
  asks : c.ReadsAhead drive lba ds loaded
  keeps {stores : Stores} {w w' : World} : c.Coherent w →
    Trace.Along (World.Step stores) (traces ds) w w' →
      c'.plain w' = c.plain w ∧ c'.Coherent w'

/-- A sector was written: only what a write asks for was asked (`Writes`), and nothing but the
sector changed. -/
structure HasWritten (data : Sector) (ds : List Deed) (reply : Except Error Unit) (c' : Cache) :
    Prop where
  asks : c.Writes drive lba data ds reply
  stores {stores : Stores} {w w' : World} : c.Coherent w →
    Trace.Along (World.Step stores) (traces ds) w w' →
      PlainDisk.Step stores (c.plain w) ⟨.write drive lba data, reply⟩ (c'.plain w') ∧
        c'.Coherent w'

/-- To read a sector is to have read it in the sense of `HasRead`. -/
theorem does_hasRead :
    Does (c.read drive lba) fun ds p => c.HasRead drive lba ds p.1 p.2 := by
  refine (does_read c drive lba).run.mono fun ds p hread => ?_
  obtain ⟨hrun, hasks⟩ := hread
  exact ⟨hasks, fun hcoherent along => ensures_read hcoherent drive lba _ _ _ hrun along⟩

/-- To read ahead is to have read ahead in the sense of `HasReadAhead`. -/
theorem does_hasReadAhead :
    Does (c.readAhead drive lba) fun ds p => c.HasReadAhead drive lba ds p.1 p.2 := by
  refine (does_readAhead c drive lba).run.mono fun ds p hahead => ?_
  obtain ⟨hrun, hasks⟩ := hahead
  exact ⟨hasks, fun hcoherent along => ensures_readAhead hcoherent drive lba _ _ _ hrun along⟩

/-- To write a sector is to have written it in the sense of `HasWritten`. -/
theorem does_hasWritten (data : Sector) :
    Does (c.write drive lba data) fun ds p => c.HasWritten drive lba data ds p.1 p.2 := by
  refine (does_write c drive lba data).run.mono fun ds p hwritten => ?_
  obtain ⟨hrun, hasks, -⟩ := hwritten
  exact ⟨hasks, fun hcoherent along => ensures_write hcoherent drive lba data _ _ _ hrun along⟩

end Cache

/-- Whether an access to a sector was tried. -/
def Outcome.isAccess : Outcome → Bool
  | .idle | .config => false
  | .read .. | .write .. | .failed _ => true

namespace VirtualCard

/-! ### What a poll may do -/

/-- The host is told that the disk is in use, `on`, or no more. -/
def light (on : Bool) : Deed := .host (.diskActivity on) ()

/-- The sector `data` is fetched from the core: 512 bytes are clocked out of it. -/
def fetch (echo : UInt8) (data : Sector) : Deed :=
  .frame .io ((0x18, echo) :: data.toList.map ((0x00, ·)))

/-- The user is warned if it is due, by `mistrusts`. -/
def warning (v : VirtualCard) (r : Request) : List Deed :=
  if v.mistrusts r then [.host (.showError capacityWarning) ()] else []

/-- The card's registers are sent if `r` asks for them. -/
inductive Configures (medium : Medium) (r : Request) : List Deed → Prop where
  | asked {bytes : List (UInt8 × UInt8)} (bit : r.status.toNat / 8 % 2 = 1)
      (sent : bytes.map (·.1) = 0x19 :: (cid.toList ++
        (csd medium.sectors medium.highCapacity).toList ++
          [if medium.highCapacity then 0x01 else 0x00])) :
      Configures medium r [.frame .io bytes]
  | unasked (bit : r.status.toNat / 8 % 2 = 0) : Configures medium r []

/-- An access is served, if `r` asks for one. -/
inductive Serves (c : Cache) (r : Request) : List Deed → Outcome × Cache → Prop where
  | none (bits : r.status.toNat % 4 = 0 ∨ r.status.toNat % 4 = 3) : Serves c r [] (.config, c)
  | written {echo : UInt8} {data : Sector} {ds : List Deed} {c' : Cache}
      (bits : r.status.toNat % 4 = 2)
      (written : c.HasWritten r.drive r.lba data ds (.ok ()) c') :
      Serves c r (fetch echo data :: light true :: (ds ++ [light false]))
        (.write r.drive r.lba, c')
  | notWritten {echo : UInt8} {data : Sector} {ds : List Deed} {e : Error} {c' : Cache}
      (bits : r.status.toNat % 4 = 2)
      (written : c.HasWritten r.drive r.lba data ds (.error e) c') :
      Serves c r (fetch echo data :: light true :: (ds ++ [light false])) (.failed e, c')
  | read {data : Sector} {ds ahead : List Deed} {bytes : List (UInt8 × UInt8)} {loaded : Bool}
      {c' c'' : Cache} (bits : r.status.toNat % 4 = 1)
      (read : c.HasRead r.drive r.lba ds (.ok data) c')
      (sent : bytes.map (·.1) = 0x17 :: data.toList)
      (readAhead : c'.HasReadAhead r.drive r.lba ahead loaded c'') :
      Serves c r (light true :: (ds ++ .frame .io bytes :: (ahead ++ [light false])))
        (.read r.drive r.lba, c'')
  | notRead {ds : List Deed} {e : Error} {c' : Cache} (bits : r.status.toNat % 4 = 1)
      (read : c.HasRead r.drive r.lba ds (.error e) c') :
      Serves c r (light true :: (ds ++ [light false])) (.failed e, c')

/-- A poll: the status is asked for (`StatusFrame`), and if it says that the core speaks either
protocol the registers are sent (`Configures`), the user is warned and an access is served
(`Serves`), each if it is due. -/
inductive Polls (v : VirtualCard) : List Deed → Outcome × VirtualCard → Prop where
  | idle {bytes : List (UInt8 × UInt8)} {r : Request} (status : StatusFrame bytes r)
      (high : r.status.toNat / 16 ≠ 5 ∧ r.status.toNat / 16 ≠ 6) :
      Polls v [.frame .io bytes] (.idle, v)
  | request {bytes : List (UInt8 × UInt8)} {r : Request} {sent served : List Deed}
      {outcome : Outcome} {c : Cache} (status : StatusFrame bytes r)
      (high : r.status.toNat / 16 = 5 ∨ r.status.toNat / 16 = 6)
      (configures : Configures v.cache.medium r sent)
      (serves : Serves v.cache r served (outcome, c)) :
      Polls v (.frame .io bytes :: (sent ++ (v.warning r ++ served)))
        (outcome, ⟨c, v.warned || v.mistrusts r⟩)

/-- What an access is made of: the `light`, the frame of the sector, and what storage is asked. -/
theorem Serves.forall_mem {c : Cache} {r : Request} {ds : List Deed} {p : Outcome × Cache}
    {P : Deed → Prop} (h : Serves c r ds p) (storage : ∀ d, Cache.isStorage d = true → P d)
    (lit : ∀ on, P (light on)) (fetched : ∀ echo data, P (fetch echo data))
    (sent : ∀ bytes data, bytes.map (·.1) = 0x17 :: data → P (.frame .io bytes)) :
    ∀ d ∈ ds, P d := by
  cases h with
  | none bits => exact List.forall_mem_nil _
  | written bits written =>
    have hstored := fun d hd => storage d (written.asks.isStorage d hd)
    simpa [lit, fetched, or_imp, forall_and] using hstored
  | notWritten bits written =>
    have hstored := fun d hd => storage d (written.asks.isStorage d hd)
    simpa [lit, fetched, or_imp, forall_and] using hstored
  | read bits read frame readAhead =>
    have hread := fun d hd => storage d (read.asks.isStorage d hd)
    have hahead := fun d hd => storage d (readAhead.asks.isStorage d hd)
    simpa [lit, sent _ _ frame, or_imp, forall_and] using ⟨hread, hahead⟩
  | notRead bits read =>
    have hread := fun d hd => storage d (read.asks.isStorage d hd)
    simpa [lit, or_imp, forall_and] using hread

/-- What `p` does with the disk light on comes between the light's going on and off. -/
theorem does_withLight {α : Type} {p : Action α} {Q : List Deed → α → Prop} (h : Does p Q) :
    Does (withLight p) fun ds a => ∃ ds', ds = light true :: (ds' ++ [light false]) ∧ Q ds' a := by
  refine .bind ((Device.does_host _).mono fun on _ hon => ?_)
  refine .bind (h.mono fun ds a hQ => ?_)
  refine .bind ((Device.does_host _).mono fun off _ hoff => .done ⟨ds, ?_, hQ⟩)
  rw [hon, hoff, List.append_nil]
  rfl

/-- To receive a sector is to `fetch` it. -/
theorem does_receiveSector :
    Does Link.receiveSector fun ds data => ∃ echo, ds = [fetch echo data] := by
  refine (Device.does_query _ (Device.clocks_receiveBytes sectorSize)).mono fun ds data hquery => ?_
  obtain ⟨echo, bytes, rfl, rfl⟩ := hquery
  exact ⟨echo, rfl⟩

/-- A write is served as `Serves` says. -/
theorem does_serveWrite (c : Cache) {r : Request} (bits : r.status.toNat % 4 = 2) :
    Does (serveWrite c r.drive r.lba) (Serves c r) := by
  refine .bind (does_receiveSector.mono fun ds data hfetch => ?_)
  obtain ⟨echo, rfl⟩ := hfetch
  refine .bind ((does_withLight (c.does_hasWritten r.drive r.lba data)).mono fun ds p hlit => ?_)
  obtain ⟨ds, rfl, hwritten⟩ := hlit
  obtain ⟨reply, c'⟩ := p
  cases reply with
  | ok u => exact .done (by simpa using .written bits hwritten)
  | error e => exact .done (by simpa using .notWritten bits hwritten)

/-- A read is served as `Serves` says. -/
theorem does_serveRead (c : Cache) {r : Request} (bits : r.status.toNat % 4 = 1) :
    Does (serveRead c r.drive r.lba) (Serves c r) := by
  -- the light is part of what is served, so the condition on what happens under it mentions it
  refine (does_withLight (Q := fun ds p => Serves c r (light true :: (ds ++ [light false])) p)
    (.bind ((c.does_hasRead r.drive r.lba).mono fun ds p hread => ?_))).mono fun ds p hlit => ?_
  · obtain ⟨reply, c'⟩ := p
    cases reply with
    | error e =>
      refine .done ?_
      rw [List.append_nil]
      exact .notRead bits hread
    | ok data =>
      refine .bind ((Device.does_command _ _).mono fun sent _ hsent => ?_)
      obtain ⟨bytes, rfl, hbytes⟩ := hsent
      refine .bind ((c'.does_hasReadAhead r.drive r.lba).mono fun ahead p hahead => .done ?_)
      simp only [List.append_nil, List.append_assoc, List.cons_append, List.nil_append]
      exact .read bits hread hbytes hahead
  · obtain ⟨ds, rfl, hserves⟩ := hlit
    exact hserves

/-- Any access is served as `Serves` says. -/
theorem does_serve (c : Cache) (r : Request) : Does (serve c r) (Serves c r) := by
  unfold serve
  rw [r.access_eq]
  by_cases hwrite : r.status.toNat % 4 = 2
  · rw [if_pos hwrite]
    exact does_serveWrite c hwrite
  · rw [if_neg hwrite]
    by_cases hread : r.status.toNat % 4 = 1
    · rw [if_pos hread]
      exact does_serveRead c hread
    · rw [if_neg hread]
      exact .done (.none (by omega))

/-- The user is warned by `warning`, and that is remembered. -/
theorem does_warn (v : VirtualCard) (r : Request) :
    Does (v.warn r) fun ds v' => ds = v.warning r ∧ v' = ⟨v.cache, v.warned || v.mistrusts r⟩ := by
  unfold warn warning
  by_cases hdue : v.mistrusts r = true
  · rw [if_pos hdue, if_pos hdue, hdue, Bool.or_true]
    refine .bind ((Device.does_host _).mono fun ds _ hds => .done ⟨?_, rfl⟩)
    rw [hds, List.append_nil]
  · rw [if_neg hdue, if_neg hdue, Bool.eq_false_iff.2 hdue, Bool.or_false]
    exact .done ⟨rfl, rfl⟩

theorem does_identify (v : VirtualCard) {r : Request} (bit : r.status.toNat / 8 % 2 = 1) :
    Does v.identify fun ds _ => Configures v.cache.medium r ds := by
  refine (Device.does_command _ _).mono fun ds _ hsent => ?_
  obtain ⟨bytes, rfl, hbytes⟩ := hsent
  exact .asked bit hbytes

/-- A poll, with whatever may be known, by `serves`, of how an access is served. -/
inductive PollsBy (v : VirtualCard) (serves : Request → List Deed → Outcome × Cache → Prop) :
    List Deed → Outcome × VirtualCard → Prop where
  | idle {bytes : List (UInt8 × UInt8)} {r : Request} (status : StatusFrame bytes r)
      (high : r.status.toNat / 16 ≠ 5 ∧ r.status.toNat / 16 ≠ 6) :
      PollsBy v serves [.frame .io bytes] (.idle, v)
  | request {bytes : List (UInt8 × UInt8)} {r : Request} {sent served : List Deed}
      {outcome : Outcome} {c : Cache} (status : StatusFrame bytes r)
      (high : r.status.toNat / 16 = 5 ∨ r.status.toNat / 16 = 6)
      (configures : Configures v.cache.medium r sent) (serving : serves r served (outcome, c)) :
      PollsBy v serves (.frame .io bytes :: (sent ++ (v.warning r ++ served)))
        (outcome, ⟨c, v.warned || v.mistrusts r⟩)

section PollsBy

variable {v : VirtualCard} {serves : Request → List Deed → Outcome × Cache → Prop}

/-- What follows once it is known that the core wants `r`, and the registers were sent. -/
theorem pollsBy_request (hserve : ∀ r, Does (serve v.cache r) (serves r))
    {bytes : List (UInt8 × UInt8)} {r : Request} {sent : List Deed} (status : StatusFrame bytes r)
    (high : r.status.toNat / 16 = 5 ∨ r.status.toNat / 16 = 6)
    (configures : Configures v.cache.medium r sent) :
    Does (do
      let v ← v.warn r
      let (outcome, cache) ← serve v.cache r
      pure (outcome, { v with cache }))
    fun ds p => v.PollsBy serves (.frame .io bytes :: (sent ++ ds)) p := by
  refine .bind ((does_warn v r).mono fun ds v' hwarn => ?_)
  obtain ⟨rfl, rfl⟩ := hwarn
  refine .bind ((hserve r).mono fun served p hserves => .done ?_)
  rw [List.append_nil]
  exact .request status high configures hserves

/-- A poll goes as is known of the access that it `serves`. -/
theorem does_pollBy (hserve : ∀ r, Does (serve v.cache r) (serves r)) :
    Does v.poll (v.PollsBy serves) := by
  refine .bind (does_sdStatus.mono fun ds r hstatus => ?_)
  obtain ⟨bytes, rfl, hframe⟩ := hstatus
  by_cases hvalid : r.isValid = true
  · rw [if_pos hvalid]
    have hhigh := r.isValid_iff.1 hvalid
    by_cases hconfig : r.flags.has .config = true
    · rw [if_pos hconfig]
      have hbit := r.asksForConfig_iff.1 hconfig
      refine .bind ((does_identify v hbit).mono fun sent _ hsent => ?_)
      exact pollsBy_request hserve hframe hhigh hsent
    · rw [if_neg hconfig]
      rw [r.asksForConfig_iff] at hconfig
      exact pollsBy_request hserve hframe hhigh (.unasked (by omega))
  · rw [if_neg hvalid]
    refine .done (.idle hframe ?_)
    rw [r.isValid_iff] at hvalid
    omega

end PollsBy

/-- A poll goes as `Polls` says. -/
theorem does_poll (v : VirtualCard) : Does v.poll v.Polls := by
  refine (does_pollBy (does_serve v.cache)).mono fun ds p hpolls => ?_
  cases hpolls with
  | idle status high => exact .idle status high
  | request status high configures serves => exact .request status high configures serves

/-! ### What is said -/

/-- The commands of a poll: the core is asked what it wants, told about the card, and a sector is
sent or fetched. -/
def pollVocabulary : List UInt8 := [0x16, 0x19, 0x17, 0x18]

/-- The condition `P` admits what a poll is made of. -/
structure IsPolling (P : Deed → Prop) : Prop where
  storage (d : Deed) : Cache.isStorage d = true → P d
  light (on : Bool) : P (light on)
  warning (message : String) : P (.host (.showError message) ())
  command {opcode : UInt8} (known : opcode ∈ pollVocabulary) {payload : Bytes}
    {bytes : List (UInt8 × UInt8)} (sent : bytes.map (·.1) = opcode :: payload) :
    P (.frame .io bytes)

namespace IsPolling

variable {P : Deed → Prop} {r : Request} {ds : List Deed}

theorem status (h : IsPolling P) {bytes : List (UInt8 × UInt8)} (hstatus : StatusFrame bytes r) :
    P (.frame .io bytes) := by
  cases hstatus <;> exact h.command (by decide : (0x16 : UInt8) ∈ pollVocabulary) rfl

theorem configures (h : IsPolling P) {medium : Medium} (hconfigures : Configures medium r ds) :
    ∀ d ∈ ds, P d := by
  cases hconfigures with
  | asked bit sent => exact List.forall_mem_singleton.2 (h.command (by decide) sent)
  | unasked bit => exact List.forall_mem_nil _

theorem warned (h : IsPolling P) (v : VirtualCard) (r : Request) : ∀ d ∈ v.warning r, P d := by
  unfold VirtualCard.warning
  split
  · exact List.forall_mem_singleton.2 (h.warning _)
  · exact List.forall_mem_nil _

/-- The vocabulary admits what an access is made of (`Serves`). -/
theorem serves (h : IsPolling P) {c : Cache} {p : Outcome × Cache} (hserves : Serves c r ds p) :
    ∀ d ∈ ds, P d :=
  hserves.forall_mem h.storage h.light
    (fun _ _ => h.command (by decide : (0x18 : UInt8) ∈ pollVocabulary) rfl)
    (fun _ _ sent => h.command (by decide) sent)

theorem polls (h : IsPolling P) {v : VirtualCard} {p : Outcome × VirtualCard}
    (hpolls : v.Polls ds p) : ∀ d ∈ ds, P d := by
  cases hpolls with
  | idle status high => exact List.forall_mem_singleton.2 (h.status status)
  | @request _ r _ _ _ _ status high configures serves =>
    refine List.forall_mem_cons.2 ⟨h.status status, List.forall_mem_append.2
      ⟨h.configures configures, List.forall_mem_append.2 ⟨h.warned v r, h.serves serves⟩⟩⟩

/-- Every deed of a poll satisfies `P`. -/
theorem poll (h : IsPolling P) (v : VirtualCard) : Device.Only P v.poll :=
  (does_poll v).mono fun _ _ hpolls => h.polls hpolls

end IsPolling

/-- Whatever the core asks for and whatever fails, a poll keeps to the `pollVocabulary`, and leaves
no frame open. -/
theorem uses_poll (v : VirtualCard) : Device.Uses pollVocabulary v.poll := by
  refine IsPolling.poll ⟨fun d hd => ?_, fun _ => rfl, fun _ => rfl,
    fun known _ _ sent => Device.isWithin_frame known sent⟩ v
  exact Cache.of_isStorage (P := fun d => d.isWithin pollVocabulary = true) (fun _ _ => rfl)
    (fun _ _ => rfl) hd

/-! ### The disk light -/

/-- How the disk light is switched in `ds`, in order. -/
def lights (ds : List Deed) : List Bool :=
  ds.filterMap fun
    | .host (.diskActivity on) _ => some on
    | _ => none

@[simp] theorem lights_nil : lights [] = [] := rfl

@[simp] theorem lights_append (ds ds' : List Deed) : lights (ds ++ ds') = lights ds ++ lights ds' :=
  List.filterMap_append

/-- What is asked of the medium and the files (`isStorage`) is none of the host's business. -/
theorem lights_of_storage {ds : List Deed} (h : ∀ d ∈ ds, Cache.isStorage d = true) :
    lights ds = [] := by
  refine List.filterMap_eq_nil_iff.2 fun d hd => ?_
  have hstorage := h d hd
  cases d with
  | medium request reply => rfl
  | file request reply => rfl
  | _ => cases hstorage

@[simp] theorem lights_warning (v : VirtualCard) (r : Request) : lights (v.warning r) = [] := by
  unfold warning
  split <;> rfl

@[simp] theorem lights_frame (target : Link.Target) (bytes : List (UInt8 × UInt8))
    (ds : List Deed) : lights (.frame target bytes :: ds) = lights ds := rfl

@[simp] theorem lights_fetch (echo : UInt8) (data : Sector) (ds : List Deed) :
    lights (fetch echo data :: ds) = lights ds := rfl

@[simp] theorem lights_light (on : Bool) (ds : List Deed) :
    lights (light on :: ds) = on :: lights ds := rfl

theorem Configures.lights {medium : Medium} {r : Request} {ds : List Deed}
    (h : Configures medium r ds) : lights ds = [] := by
  cases h <;> rfl

/-- The light goes on and off (`lights`) for an access that is tried. -/
theorem Serves.lights {c : Cache} {r : Request} {ds : List Deed} {p : Outcome × Cache}
    (h : Serves c r ds p) : lights ds = if p.1.isAccess then [true, false] else [] := by
  cases h with
  | none bits => rfl
  | written bits written => simp [lights_of_storage written.asks.isStorage, Outcome.isAccess]
  | notWritten bits written => simp [lights_of_storage written.asks.isStorage, Outcome.isAccess]
  | read bits read sent readAhead =>
    simp [lights_of_storage read.asks.isStorage, lights_of_storage readAhead.asks.isStorage,
      Outcome.isAccess]
  | notRead bits read => simp [lights_of_storage read.asks.isStorage, Outcome.isAccess]

/-- **One poll.**  Whatever comes back on the link, whatever is cached and whichever accesses to the
storage fail, the journal of a poll is one of those described by `Polls`, and of the `lights` the
disk light goes on and then off, once each, if an access to a sector was tried (`isAccess`), and
otherwise not at all. -/
theorem poll_protocol {v v' : VirtualCard} {t : Trace Device} {outcome : Outcome}
    (hrun : v.poll.Run t (outcome, v')) :
    t = traces (Device.journal t) ∧ v.Polls (Device.journal t) (outcome, v') ∧
      lights (Device.journal t) = if outcome.isAccess then [true, false] else [] := by
  obtain ⟨ht, hpolls⟩ := (does_poll v).journal hrun
  refine ⟨ht, hpolls, ?_⟩
  generalize Device.journal t = ds at hpolls ⊢
  cases hpolls with
  | idle status high => rfl
  | request status high configures serves => simp [configures.lights, serves.lights]

/-- A card of unknown size. -/
def blank : VirtualCard := { cache := { medium := ⟨0, true⟩ } }

/-- The core asks for the registers and for a sector, and the medium fails. -/
def broken : (r : Device.Request) → Device.Reply r :=
  Device.replying (fun _ => 0x69) none (.error .io)

/-- The light goes off all the same when the medium is `broken`. -/
theorem poll_protocol_broken :
    (blank.poll.record broken).2.1 = .failed .io ∧
      lights (Device.journal (blank.poll.record broken).1) = [true, false] := by
  have houtcome : (blank.poll.record broken).2.1 = .failed .io := by decide +kernel
  obtain ⟨-, -, hlights⟩ := poll_protocol (Program.run_record_of_fst houtcome)
  exact ⟨houtcome, hlights⟩

end VirtualCard

end Disk

end IoController
