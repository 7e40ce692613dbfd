import IoController.Proofs.Disk.PlainDisk

/-!
# Disk — Coherence

The cache is never seen: what the drives return is what they would return without it.

* `Cache.Coherent`: a cached sector is what is stored behind its drive.
* `Cache.ensures_perform`: with I/O failing at any point, an operation on a coherent cache is one
  on plain drives, and leaves the cache coherent.
* `Cache.Session.coherent`: over every session of a new cache no read returns anything but what
  is stored, an unmounted image holds the writes that were made to it, and the drives keep out
  of each other's images.
-/

namespace IoController.Disk.Cache

variable {stores : Stores} {c : Cache} {w : World}

/-- Carries out the operation on the cache `c`. -/
def perform (c : Cache) : (op : Operation) → Action (op.Result × Cache)
  | .mount drive image => c.mount drive image
  | .unmount drive =>
    match c.unmount drive with
    | .error e => pure (.error e, c)
    | .ok (image, c) => pure (.ok image, c)
  | .read drive lba => c.read drive lba
  | .readAhead drive lba => c.readAhead drive lba
  | .write drive lba data => c.write drive lba data
  | .invalidate => pure ((), c.invalidate)

/-- The drives without the cached sector, with what `w` stores. -/
def plain (c : Cache) (w : World) : PlainDisk := ⟨c.medium, c.drives, w.contents⟩

/-- A cached sector is what is stored behind its drive, in `w`. -/
def Coherent (c : Cache) (w : World) : Prop :=
  ∀ e, c.entry = some e → ∃ s, c.source? e.drive = some s ∧ e.data = w.contents s.backing e.lba

theorem covers_eq (c : Cache) (s : Source) (lba : UInt32) :
    c.covers s lba = s.covers c.medium lba := by cases s <;> rfl

/-- Without a cached sector (`entry`) there is nothing to be wrong. -/
theorem coherent_of_none (h : c.entry = none) : c.Coherent w := by
  intro e he
  rw [h] at he
  cases he

/-- The cached sector (`entry`) stays right while its drive keeps its backing and the backing its
contents. -/
theorem Coherent.same {c' : Cache} {w' : World} (h : c.Coherent w)
    (hplain : c'.plain w' = c.plain w) (hentry : c'.entry = c.entry) : c'.Coherent w' := by
  have hdrives : c'.drives = c.drives := congrArg PlainDisk.drives hplain
  have hcontents : w'.contents = w.contents := congrArg PlainDisk.contents hplain
  intro e he
  obtain ⟨s, hs, hdata⟩ := h e (hentry.symm.trans he)
  refine ⟨s, ?_, ?_⟩
  · rw [source?, hdrives]
    exact hs
  · rw [hcontents]
    exact hdata

/-! ### Loading -/

/-- Loading the sector `lba` returns what is stored, and what it keeps is right whatever was kept
before. -/
theorem ensures_load (c : Cache) {s : Source} {drive : UInt8} (hs : c.source? drive = some s)
    (lba : UInt32) :
    (c.load s drive lba).Ensures (World.Step stores) w fun p w' =>
      (∀ data, p.1 = .ok data → data = w.contents s.backing lba) ∧
        p.2.plain w' = c.plain w ∧ p.2.Coherent w' := by
  refine .bind ((s.ensures_read lba).mono fun reply w' hreads => ?_)
  obtain ⟨hcontents, hdata⟩ := hreads
  cases reply with
  | error e =>
    -- whatever a failed read left behind is not kept
    have hplain : c.invalidate.plain w' = c.plain w := by
      rw [plain, hcontents]
      rfl
    exact .done ⟨fun _ h => (nomatch h), hplain, coherent_of_none rfl⟩
  | ok data =>
    refine .done ⟨hdata, ?_, fun e he => ?_⟩
    · rw [plain, hcontents]
      rfl
    · simp only [keep] at he
      split at he
      · cases he
      · obtain rfl := Option.some.inj he
        refine ⟨s, hs, ?_⟩
        rw [hcontents]
        exact hdata data rfl

/-! ### Reading -/

/-- A sector that `find?` finds in the cache is the cached one. -/
theorem find?_eq_some {drive : UInt8} {lba : UInt32} {data : Sector}
    (h : c.find? drive lba = some data) : c.entry = some ⟨drive, lba, data⟩ := by
  unfold find? at h
  split at h
  · next e hentry =>
    split at h
    · next hkey =>
      obtain ⟨rfl, rfl⟩ := hkey
      obtain rfl := Option.some.inj h
      exact hentry
    · cases h
  · cases h

/-- A read `Answers` what is stored. -/
theorem ensures_read (h : c.Coherent w) (drive : UInt8) (lba : UInt32) :
    (c.read drive lba).Ensures (World.Step stores) w fun p w' =>
      (c.plain w).Answers drive lba p.1 ∧ p.2.plain w' = c.plain w ∧ p.2.Coherent w' := by
  unfold read
  cases hs : c.source? drive with
  | none => exact .done ⟨PlainDisk.answers_nowhere hs, rfl, h⟩
  | some s =>
    dsimp only
    rw [covers_eq]
    by_cases hcovers : s.covers c.medium lba = true
    · rw [if_pos hcovers]
      cases hfind : c.find? drive lba with
      | some data =>
        obtain ⟨s', hs', hdata⟩ := h _ (find?_eq_some hfind)
        obtain rfl : s' = s := Option.some.inj (hs'.symm.trans hs)
        refine .done ⟨PlainDisk.answers_stored hs hcovers fun data' hok => ?_, rfl, h.same rfl rfl⟩
        rw [← Except.ok.inj hok]
        exact hdata
      | none =>
        refine (ensures_load { c with stats.misses := c.stats.misses + 1 } hs lba).mono
          fun p w' hload => ?_
        obtain ⟨hdata, hplain, hcoherent⟩ := hload
        exact ⟨PlainDisk.answers_stored hs hcovers hdata, hplain, hcoherent⟩
    · rw [if_neg hcovers]
      exact .done ⟨PlainDisk.answers_outside hs (Bool.eq_false_iff.2 hcovers), rfl, h⟩

/-- Reading ahead (`readAhead`) changes nothing but what is cached. -/
theorem ensures_readAhead (h : c.Coherent w) (drive : UInt8) (lba : UInt32) :
    (c.readAhead drive lba).Ensures (World.Step stores) w fun p w' =>
      p.2.plain w' = c.plain w ∧ p.2.Coherent w' := by
  unfold readAhead
  cases hs : c.source? drive with
  | none => exact .done ⟨rfl, h⟩
  | some s =>
    dsimp only
    split
    · exact .done ⟨rfl, h⟩
    · split
      · refine .bind ((ensures_load c hs _).mono fun p w' hload => ?_)
        obtain ⟨-, hplain, hcoherent⟩ := hload
        obtain ⟨reply, c'⟩ := p
        cases reply with
        | error e => exact .done ⟨hplain, hcoherent⟩
        | ok data => exact .done ⟨hplain, hcoherent.same rfl rfl⟩
      · exact .done ⟨rfl, h⟩

/-! ### Writing -/

/-- A sector that survives a write is still right, because the write is to another sector of the
same `drive`. -/
theorem Coherent.write (h : c.Coherent w) {drive : UInt8} {s : Source}
    (hs : c.source? drive = some s) {lba : UInt32} {left : Sector} {w' : World}
    (hput : w'.contents = w.contents.put s.backing lba left) :
    ({ c with entry := c.entry.filter (survivesWrite · drive lba) } : Cache).Coherent w' := by
  intro e he
  obtain ⟨hentry, hsurvives⟩ := Option.filter_eq_some_iff.1 he
  obtain ⟨hdrive, hlba⟩ := Bool.and_eq_true_iff.1 hsurvives
  obtain rfl : e.drive = drive := beq_iff_eq.1 hdrive
  obtain ⟨s', hs', hdata⟩ := h e hentry
  obtain rfl : s' = s := Option.some.inj (hs'.symm.trans hs)
  refine ⟨s', hs, ?_⟩
  rw [hput, Contents.put_of_ne_lba (bne_iff_ne.1 hlba)]
  exact hdata

theorem Coherent.filter (h : c.Coherent w) (p : Entry → Bool) :
    ({ c with entry := c.entry.filter p } : Cache).Coherent w :=
  fun e he => h e (Option.filter_eq_some_iff.1 he).1

/-- A write of `data` that is passed on changes the sector that it is to. -/
theorem step_written {drive : UInt8} {lba : UInt32} {data : Sector} {s : Source}
    (hs : c.source? drive = some s) (hinside : s.admits lba = true) {w' : World}
    {reply : Except Error Unit} {c' : Cache} (hmedium : c'.medium = c.medium)
    (hdrives : c'.drives = c.drives) (hwrites : w.Writes stores s.backing lba data reply w') :
    PlainDisk.Step stores (c.plain w) ⟨.write drive lba data, reply⟩ (c'.plain w') := by
  obtain ⟨left, hput, hstored⟩ := hwrites
  have hplain : c'.plain w' =
      { c.plain w with contents := (c.plain w).contents.put s.backing lba left } := by
    rw [plain, hmedium, hdrives, hput]
    rfl
  rw [hplain]
  exact .written hs hinside hstored

/-- A write is one to the plain drives, and leaves the cache `Coherent`. -/
theorem ensures_write (h : c.Coherent w) (drive : UInt8) (lba : UInt32) (data : Sector) :
    (c.write drive lba data).Ensures (World.Step stores) w fun p w' =>
      PlainDisk.Step stores (c.plain w) ⟨.write drive lba data, p.1⟩ (p.2.plain w') ∧
        p.2.Coherent w' := by
  unfold write
  -- the cached sector goes before the write is tried, so a write that fails does no harm
  have hsource : ({ c with entry := c.entry.filter (survivesWrite · drive lba) } : Cache).source?
      drive = c.source? drive := rfl
  dsimp only
  rw [hsource]
  cases hs : c.source? drive with
  | none => exact .done ⟨.writeNowhere hs, h.filter _⟩
  | some s =>
    cases s with
    | medium =>
      refine .bind (.request fun reply w' hwrites => .done ?_)
      obtain ⟨left, hput, -⟩ := id hwrites
      exact ⟨step_written hs rfl rfl rfl hwrites, h.write hs hput⟩
    | image i =>
      dsimp only
      by_cases hinside : i.contains lba = true
      · rw [if_pos hinside]
        refine .bind ((i.ensures_write lba data).mono fun reply w' hwrites => .done ?_)
        obtain ⟨left, hput, -⟩ := id hwrites
        exact ⟨step_written hs hinside rfl rfl hwrites, h.write hs hput⟩
      · rw [if_neg hinside]
        exact .done ⟨.writeOutside hs (Bool.eq_false_iff.2 hinside), h.filter _⟩

/-! ### Mounting -/

/-- A mount is one of the plain drives, and leaves the cache `Coherent`. -/
theorem ensures_mount (h : c.Coherent w) (drive : UInt8) (image : Image) :
    (c.mount drive image).Ensures (World.Step stores) w fun p w' =>
      PlainDisk.Step stores (c.plain w) ⟨.mount drive image, p.1⟩ (p.2.plain w') ∧
        p.2.Coherent w' := by
  unfold mount
  cases hs : c.source? drive with
  | none =>
    refine .bind (image.ensures_close.mono fun _ w' hclose => .done ?_)
    have hplain : c.plain w' = c.plain w := by rw [plain, hclose, plain]
    refine ⟨?_, h.same hplain rfl⟩
    rw [hplain]
    exact .mountNowhere hs
  | some old =>
    refine .bind (image.ensures_buildIndex.mono fun reply w' hindex => ?_)
    cases reply with
    | error e =>
      refine .bind (image.ensures_close.mono fun _ w'' hclose => .done ?_)
      -- the drive keeps what it had, and so does the cache
      have hplain : c.plain w'' = c.plain w := by rw [plain, hclose, hindex, plain]
      have hsource : (c.plain w).source? drive = some old := hs
      refine ⟨?_, h.same hplain rfl⟩
      rw [hplain]
      exact .mountFailed hsource e
    | ok u =>
      refine .bind (old.ensures_close.mono fun _ w'' hclose => .done ?_)
      have hplain : (c.back drive (.image image)).invalidate.plain w'' =
          (c.plain w).back drive (.image image) := by
        rw [plain, hclose, hindex]
        rfl
      refine ⟨?_, coherent_of_none rfl⟩
      rw [hplain]
      exact .mounted hs

/-- An unmount is one of the plain drives, and leaves the cache `Coherent`. -/
theorem ensures_unmount (h : c.Coherent w) (drive : UInt8) :
    (c.perform (.unmount drive)).Ensures (World.Step stores) w fun p w' =>
      PlainDisk.Step stores (c.plain w) ⟨.unmount drive, p.1⟩ (p.2.plain w') ∧
        p.2.Coherent w' := by
  have hsource : (c.plain w).source? drive = c.source? drive := rfl
  simp only [perform, unmount]
  cases hs : c.source? drive with
  | none =>
    rw [hs] at hsource
    exact .done ⟨.unmountNowhere hsource, h⟩
  | some s =>
    rw [hs] at hsource
    cases s with
    | medium => exact .done ⟨.unmounted hsource, coherent_of_none rfl⟩
    | image i => exact .done ⟨.unmounted hsource, coherent_of_none rfl⟩

/-! ### Any operation -/

/-- An operation on a `Coherent` cache is one on plain drives, whatever fails, and leaves the cache
coherent. -/
theorem ensures_perform (h : c.Coherent w) (op : Operation) :
    (c.perform op).Ensures (World.Step stores) w fun p w' =>
      PlainDisk.Step stores (c.plain w) ⟨op, p.1⟩ (p.2.plain w') ∧ p.2.Coherent w' := by
  cases op with
  | mount drive image => exact ensures_mount h drive image
  | unmount drive => exact ensures_unmount h drive
  | read drive lba =>
    refine (ensures_read h drive lba).mono fun p w' hread => ?_
    obtain ⟨hanswers, hplain, hcoherent⟩ := hread
    rw [hplain]
    exact ⟨.read hanswers, hcoherent⟩
  | readAhead drive lba =>
    refine (ensures_readAhead h drive lba).mono fun p w' hahead => ?_
    obtain ⟨hplain, hcoherent⟩ := hahead
    rw [hplain]
    exact ⟨.readAhead p.1, hcoherent⟩
  | write drive lba data => exact ensures_write h drive lba data
  | invalidate => exact .done ⟨.invalidate, coherent_of_none rfl⟩

/-! ### Sessions -/

/-- What a cache and the world live through from the `start`: operations, each run to its end, and
whatever the owners of files that are not mounted do to them. -/
inductive Session (stores : Stores) (start : Cache × World) :
    Trace Drives → Cache × World → Prop where
  | start : Session stores start [] start
  | operation {log : Trace Drives} {c c' : Cache} {w w' : World} {op : Operation}
      {t : Trace Device} {result : op.Result} (before : Session stores start log (c, w))
      (owned : op.IsOwned c.drives) (run : (c.perform op).Run t (result, c'))
      (along : Trace.Along (World.Step stores) t w w') :
      Session stores start (log ++ [⟨op, result⟩]) (c', w')
  | elsewhere {log : Trace Drives} {c : Cache} {w w' : World}
      (before : Session stores start log (c, w))
      (same : ∀ b, PlainDisk.Uses c.drives b → w'.contents b = w.contents b) :
      Session stores start log (c, w')

namespace Session

variable {p q : Cache × World} {log : Trace Drives}

/-- A session is one of plain drives, and the cache stays `Coherent`. -/
theorem refines (h : Session stores p log q) (hcoherent : p.1.Coherent p.2) :
    PlainDisk.Run stores (p.1.plain p.2) log (q.1.plain q.2) ∧ q.1.Coherent q.2 := by
  induction h with
  | start => exact ⟨.start, hcoherent⟩
  | operation before owned run along ih =>
    obtain ⟨hrun, hbefore⟩ := ih
    obtain ⟨hstep, hafter⟩ := ensures_perform hbefore _ _ _ _ run along
    exact ⟨.operation hrun owned hstep, hafter⟩
  | @elsewhere log c w w' before same ih =>
    obtain ⟨hrun, hbefore⟩ := ih
    refine ⟨.elsewhere hrun w'.contents same, fun e he => ?_⟩
    obtain ⟨s, hs, hdata⟩ := hbefore e he
    refine ⟨s, hs, ?_⟩
    rw [same s.backing (.inr ⟨s, Vector.mem_of_getElem? hs, rfl⟩)]
    exact hdata

/-- **The cache is coherent.**  Take any `Session` of a new cache, with I/O failing at any points.
It is a session of two plain drives that share the medium, by `PlainDisk.Run`.  A read that succeeds
then returns what is stored behind its drive, and changes nothing.  No operation on one drive
changes the image in the other.  And an image that is unmounted later holds what was written to it
(`ImageKept`), and nothing else. -/
theorem coherent {medium : Medium} {w₀ w : World} {c : Cache}
    (h : Session stores ({ medium }, w₀) log (c, w)) :
    PlainDisk.Run stores ⟨medium, .replicate driveCount .medium, w₀.contents⟩ log (c.plain w) ∧
    (∀ drive lba, (c.read drive lba).Ensures (World.Step stores) w fun p w' =>
      w'.contents = w.contents ∧ ∀ data, p.1 = .ok data →
        ∃ s, c.source? drive = some s ∧ data = w'.contents s.backing lba) ∧
    (∀ op, op.IsOwned c.drives → (c.perform op).Ensures (World.Step stores) w fun p w' =>
      ∀ drive image, op.drive? ≠ some drive → c.source? drive = some (.image image) →
        p.2.source? drive = some (.image image) ∧
          w'.contents (.file image.file) = w.contents (.file image.file)) ∧
    ∀ later c' w' drive image, Session stores (c, w) later (c', w') →
      c.source? drive = some (.image image) →
      (∀ x ∈ later, x.request.changes drive = false) →
        (∃ c'', c'.unmount drive = .ok (some image, c'')) ∧
          PlainDisk.ImageKept stores image (w.contents (.file image.file))
            (w'.contents (.file image.file)) (PlainDisk.lastWrite? drive · later) := by
  obtain ⟨hrun, hcoherent⟩ := h.refines (coherent_of_none rfl)
  have hnone : PlainDisk.Apart (.replicate driveCount .medium) := by
    intro a b i j ha
    rw [Vector.getElem?_replicate] at ha
    split at ha <;> cases ha
  have hapart : PlainDisk.Apart c.drives := hrun.apart hnone
  refine ⟨hrun, fun drive lba => ?_, fun op howned => ?_, ?_⟩
  · refine (ensures_read hcoherent drive lba).mono fun p w' hread => ?_
    obtain ⟨hanswers, hplain, -⟩ := hread
    have hcontents : w'.contents = w.contents := congrArg PlainDisk.contents hplain
    refine ⟨hcontents, fun data hok => ?_⟩
    rw [hok] at hanswers
    obtain ⟨s, hs, hdata⟩ := PlainDisk.stored_of_answers hanswers
    rw [hcontents]
    exact ⟨s, hs, hdata⟩
  · refine (ensures_perform hcoherent op).mono fun p w' hop => ?_
    intro drive image hdrive hs
    obtain ⟨hsource, hkept⟩ := hop.1.image_kept hapart hs (Operation.changes_of_ne hdrive)
    refine ⟨hsource, funext fun lba => ?_⟩
    exact hkept.of_none (PlainDisk.writes?_of_ne (x := ⟨op, p.1⟩) hdrive lba)
  · intro later c' w' drive image hlater hs hkeeps
    obtain ⟨hlaterRun, -⟩ := hlater.refines hcoherent
    obtain ⟨hsource, hkept⟩ := hlaterRun.image_kept hapart hs hkeeps
    refine ⟨⟨(c'.back drive .medium).invalidate, ?_⟩, hkept⟩
    have hmounted : c'.source? drive = some (.image image) := hsource
    rw [unmount, hmounted]

/-- A write that succeeds leaves the data. -/
def faithful : Stores := fun _ _ data left => left = data

/-- Both drives have the `medium`, which holds zeros. -/
def blank : Cache × World :=
  ({ medium := ⟨64, true⟩ }, { contents := fun _ _ => .replicate _ 0, position := fun _ => 0 })

/-- A sector of zeros is cached for drive 1. -/
def warm : Cache :=
  { blank.1 with entry := some ⟨1, 7, .replicate _ 0⟩, stats := { misses := 1 } }

/-- Sector 7 was written. -/
def overwritten : World :=
  { blank.2 with contents := blank.2.contents.put .medium 7 (.replicate _ 1) }

/-- A sector is read through one drive and written through the other, and the next read through
the first drive sees what was written. -/
theorem coherent_shared :
    ∃ c, Session faithful blank
        [⟨.read 1 7, .ok (.replicate _ 0)⟩, ⟨.write 0 7 (.replicate _ 1), .ok ()⟩]
        (c, overwritten) ∧
      (c.read 1 7).Ensures (World.Step faithful) overwritten fun p _ =>
        ∀ data, p.1 = .ok data → data = .replicate _ 1 := by
  have hread : (blank.1.perform (.read 1 7)).Run [⟨.medium (.read 7), .ok (.replicate _ 0)⟩]
      (.ok (.replicate _ 0), warm) := .ask _ (.done _)
  have hreads : World.Step faithful blank.2 ⟨.medium (.read 7), .ok (.replicate _ 0)⟩ blank.2 := by
    refine ⟨rfl, fun data hok => ?_⟩
    rw [← Except.ok.inj hok]
    rfl
  have hwrite : (warm.perform (.write 0 7 (.replicate _ 1))).Run
      [⟨.medium (.write 7 (.replicate _ 1)), .ok ()⟩] (.ok (), warm.invalidate) :=
    .ask _ (.done _)
  have hwrites : World.Step faithful blank.2 ⟨.medium (.write 7 (.replicate _ 1)), .ok ()⟩
      overwritten := ⟨.replicate _ 1, rfl, fun _ => rfl⟩
  have hfirst : Session faithful blank [⟨.read 1 7, .ok (.replicate _ 0)⟩] (warm, blank.2) := by
    refine .operation .start ?_ hread (.cons hreads (.nil _))
    exact trivial
  have hsession : Session faithful blank
      [⟨.read 1 7, .ok (.replicate _ 0)⟩, ⟨.write 0 7 (.replicate _ 1), .ok ()⟩]
      (warm.invalidate, overwritten) := by
    refine .operation hfirst ?_ hwrite (.cons hwrites (.nil _))
    exact trivial
  refine ⟨_, hsession, ((coherent hsession).2.1 1 7).mono fun p w' hafter data hok => ?_⟩
  obtain ⟨hcontents, hdata⟩ := hafter
  obtain ⟨s, hs, rfl⟩ := hdata data hok
  have hmedium : s = .medium := by
    obtain rfl := Option.some.inj hs
    rfl
  rw [hmedium, hcontents]
  change blank.2.contents.put .medium 7 (.replicate _ 1) .medium 7 = .replicate _ 1
  exact Contents.put_self

end Session

end IoController.Disk.Cache
