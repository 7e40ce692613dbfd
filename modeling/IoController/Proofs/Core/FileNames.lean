import IoController.Proofs.Core.Detection
import IoController.Proofs.Link.Upload

/-!
# Core — FileNames

The names under which a detection looks for the files of a core.

* `Device.opened`: the names of the files that are opened.
* `nameHead?`: what of a core's name goes into the names of its files.
* `NamesFiles`: the names, three or none, for any core's name.  `fileName?_cases`: a core has all of
  them or none.
* `LoadsNamed.namesFiles`: loading a core's files opens them by those names, and opens nothing else.
* `detection_opens`: so does a detection, whatever the core answers for its name.
-/

namespace IoController

/-! ### Files that are opened -/

namespace Device

/-- The name of the file that the deed opens. -/
def Deed.opened? : Deed → Option String
  | .file (.openFile name) _ => some name
  | _ => none

/-- The names of the files that are opened in `ds`, in order. -/
def opened (ds : List Deed) : List String := ds.filterMap Deed.opened?

@[simp] theorem opened_append (ds ds' : List Deed) : opened (ds ++ ds') = opened ds ++ opened ds' :=
  List.filterMap_append

@[simp] theorem opened_openFile (name : String) (file? : Option Disk.Image) (ds : List Deed) :
    opened (.file (.openFile name) file? :: ds) = name :: opened ds := rfl

end Device

open Device (Deed opened)

theorem Disk.Cache.Loads.opened_eq {lba : UInt32} {s : Disk.Source} {ds : List Deed}
    {reply : Except Disk.Error Disk.Sector} (h : Disk.Cache.Loads lba s ds reply) :
    opened ds = [] := by
  cases h <;> rfl

theorem Disk.Source.opened_closing (s : Disk.Source) : opened s.closing = [] := by
  cases s <;> rfl

theorem Link.Upload.Streams.opened_eq {file : Disk.File} {wanted : Nat} {ds : List Deed}
    {result : Except Disk.Error Unit} (h : Link.Upload.Streams file wanted ds result) :
    opened ds = [] := by
  induction h with
  | done => rfl
  | unread more => rfl
  | chunk more sent rest ih => exact ih

theorem Link.Upload.Loads.opened_eq {image : Disk.Image} {index : UInt8} {ext : String}
    {ds : List Deed} {result : Except Disk.Error Unit}
    (h : Link.Upload.Loads image index ext ds result) : opened ds = [] := by
  cases h with
  | refused long => rfl
  | unsought fits opening => rfl
  | @sent _ _ _ last contents _ fits opening streams finish =>
    change opened (contents ++ [.frame .fpga last]) = []
    rw [Device.opened_append, streams.opened_eq]
    rfl

namespace Core

/-! ### Names -/

/-- The first eight bytes of `name`, or all of one that has no more.  There are none if the cut
would be in the middle of a character. -/
def nameHead? (name : List Char) : Option (List Char) := Text.truncate? 8 name

/-- The names that are made of `base`. -/
def namesOf (base : List Char) : List String :=
  extensions.map fun ext => String.ofList (padded base ++ ext.toList)

/-- The names of the files of a core that has the name `name`. -/
inductive NamesFiles (name : List Char) : List String → Prop where
  /-- A name that cannot be cut stands for nothing but spaces. -/
  | uncut (head : nameHead? name = none) : NamesFiles name (namesOf [])
  | plain {base : List Char} (head : nameHead? name = some base) (hne : base ≠ [])
      (ascii : ∀ c ∈ base, c.toNat < 0x80) : NamesFiles name (namesOf base)
  | nameless (head : nameHead? name = some []) : NamesFiles name []
  | foreign {base : List Char} {c : Char} (head : nameHead? name = some base) (hc : c ∈ base)
      (foreign : 0x80 ≤ c.toNat) : NamesFiles name []

/-- A name of eight and three ASCII characters, which can be cut between the two, as `withExtension`
does. -/
def IsEightAndThree (file : String) : Prop :=
  ∃ base ext, Text.cut? 8 file.toList = some (base, ext) ∧ base.length = 8 ∧ ext.length = 3 ∧
    ∀ c ∈ file.toList, c.toNat < 0x80

variable {name : String} {base : List Char} {ext file : String}

/-- Only a core without a `name` has an empty base. -/
theorem nameHead?_nil_iff {name : List Char} : nameHead? name = some [] ↔ name = [] := by
  constructor
  · intro h
    unfold nameHead? Text.truncate? at h
    split at h
    · exact Option.some.inj h
    · obtain ⟨⟨head, rest⟩, hcut, rfl⟩ := Option.map_eq_some_iff.1 h
      cases (Text.eq_append_of_cut? hcut).2
  · rintro rfl
    rfl

/-- A `base` that is not too long is padded to eight characters. -/
theorem length_padded (h : base.length ≤ 8) : (padded base).length = 8 := by
  rw [padded, List.length_append, List.length_replicate]
  omega

theorem ascii_padded (h : ∀ c ∈ base, c.toNat < 0x80) : ∀ c ∈ padded base, c.toNat < 0x80 := by
  refine List.forall_mem_append.2 ⟨h, fun c hc => ?_⟩
  rw [List.eq_of_mem_replicate hc]
  decide

theorem length_le_of_byteSize (h : Text.byteSize base ≤ 8) : base.length ≤ 8 :=
  Nat.le_trans (Text.length_le_byteSize base) h

/-- A base that is `padded` takes eight bytes if it is ASCII.  Otherwise it takes more. -/
theorem byteSize_padded_eq_iff (h : Text.byteSize base ≤ 8) :
    Text.byteSize (padded base) = 8 ↔ ∀ c ∈ base, c.toNat < 0x80 := by
  have hspaces : Text.byteSize (List.replicate (8 - base.length) ' ') = 8 - base.length := by
    rw [Text.byteSize_eq_length_iff.2, List.length_replicate]
    intro c hc
    rw [List.eq_of_mem_replicate hc]
    decide
  have hlength := Text.length_le_byteSize base
  rw [padded, Text.byteSize_append, hspaces, ← Text.byteSize_eq_length_iff]
  omega

/-- A name that is not empty has a head that is not. -/
theorem isEmpty_eq_false_iff : name.isEmpty = false ↔ nameHead? name.toList ≠ some [] := by
  rw [← Bool.not_eq_true, String.isEmpty_iff, Ne, nameHead?_nil_iff, ← String.toList_inj]
  rfl

/-- By `fileName?`, a core has names for all of its files or for none. -/
theorem fileName?_cases (name : String) :
    (∃ base, (∀ ext ∈ extensions,
        fileName? name ext = some (String.ofList (padded base ++ ext.toList))) ∧
      NamesFiles name.toList (namesOf base)) ∨
    (∀ ext ∈ extensions, fileName? name ext = none) ∧ NamesFiles name.toList [] := by
  have hsome {base : List Char} (hname : name.isEmpty = false) (hstem : stem name = base)
      (height : Text.byteSize (padded base) = 8) (ext : String) (hext : ext ∈ extensions) :
      fileName? name ext = some (String.ofList (padded base ++ ext.toList)) := by
    subst hstem
    exact (fileName?_eq_some_iff hext).2 ⟨hname, height, rfl⟩
  cases hhead : nameHead? name.toList with
  | none =>
    have hname : name.isEmpty = false := isEmpty_eq_false_iff.2 (by simp [hhead])
    exact .inl ⟨[], hsome hname (congrArg (·.getD []) hhead) rfl, .uncut hhead⟩
  | some base =>
    have hstem : stem name = base := congrArg (·.getD []) hhead
    have hsize := byteSize_padded_eq_iff (Text.byteSize_le_of_truncate? hhead)
    by_cases hne : base = []
    · subst hne
      refine .inr ⟨fun ext hext => Option.eq_none_iff_forall_ne_some.2 fun file hfile => ?_,
        .nameless hhead⟩
      exact isEmpty_eq_false_iff.1 ((fileName?_eq_some_iff hext).1 hfile).1 hhead
    · by_cases hascii : ∀ c ∈ base, c.toNat < 0x80
      · have hname : name.isEmpty = false := isEmpty_eq_false_iff.2 (by simpa [hhead] using hne)
        exact .inl ⟨base, hsome hname hstem (hsize.2 hascii), .plain hhead hne hascii⟩
      · obtain ⟨c, hc, hforeign⟩ : ∃ c ∈ base, 0x80 ≤ c.toNat := by simpa using hascii
        refine .inr ⟨fun ext hext => Option.eq_none_iff_forall_ne_some.2 fun file hfile => ?_,
          .foreign hhead hc hforeign⟩
        obtain ⟨-, height, -⟩ := (fileName?_eq_some_iff hext).1 hfile
        exact hascii (hsize.1 (hstem ▸ height))

/-- A name that cannot be cut does not keep a core from its files. -/
example : fileName? "ABCDEFGé" "CFG" = some "        CFG" := by decide +kernel

/-- Every name that is made of an ASCII `base` is one of eight and three characters. -/
theorem isEightAndThree_of_mem (hascii : ∀ c ∈ base, c.toNat < 0x80) (hlength : base.length ≤ 8)
    (hfile : file ∈ namesOf base) : IsEightAndThree file := by
  obtain ⟨ext, hext, rfl⟩ := List.mem_map.1 hfile
  have hthree : ext.toList.length = 3 ∧ ∀ c ∈ ext.toList, c.toNat < 0x80 := by
    simp only [extensions, List.mem_cons, List.not_mem_nil, or_false] at hext
    rcases hext with rfl | rfl | rfl <;> exact ⟨rfl, Text.byteSize_eq_length_iff.1 rfl⟩
  have height := length_padded hlength
  have hbase := ascii_padded hascii
  refine ⟨padded base, ext.toList, ?_, height, hthree.1, ?_⟩
  · have hsize : Text.byteSize (padded base) = 8 :=
      (Text.byteSize_eq_length_iff.2 hbase).trans height
    rw [String.toList_ofList, ← hsize, Text.cut?_append]
  · rw [String.toList_ofList]
    exact List.forall_mem_append.2 ⟨hbase, hthree.2⟩

/-- Every `name` of a core's file is one of eight and three characters. -/
theorem NamesFiles.isEightAndThree {name : List Char} {names : List String}
    (h : NamesFiles name names) : ∀ file ∈ names, IsEightAndThree file := by
  intro file hfile
  cases h with
  | uncut head =>
    exact isEightAndThree_of_mem (fun c hc => absurd hc List.not_mem_nil) (Nat.zero_le 8) hfile
  | plain head hne ascii =>
    exact isEightAndThree_of_mem ascii (length_le_of_byteSize (Text.byteSize_le_of_truncate? head))
      hfile
  | nameless head => exact absurd hfile List.not_mem_nil
  | foreign head hc foreign => exact absurd hfile List.not_mem_nil

/-! ### Files that a detection opens -/

theorem Tells.opened_eq {w : UInt32} {ds : List Deed} (h : Tells w ds) : opened ds = [] := by
  obtain ⟨bytes, bytes', rfl, -, -⟩ := h
  rfl

/-- To tell the core about the `card` opens no file. -/
theorem TellsCard.opened_eq {card : Disk.VirtualCard} {d : Deed} (h : TellsCard card d) :
    opened [d] = [] := by
  obtain ⟨bytes, rfl, -⟩ := h
  rfl

theorem AsksItem.opened_eq {item : Option String} {d : Deed} (h : AsksItem item d) :
    opened [d] = [] := by
  obtain ⟨back, bytes, rfl, -, -⟩ := h.1
  rfl

theorem LoadsConfig.opened_eq {ds : List Deed} {saved : Option UInt32}
    (h : LoadsConfig file ds saved) : opened ds = [file] := by
  cases h with
  | absent => rfl
  | long long => rfl
  | unread read short =>
    rw [Device.opened_openFile, Device.opened_append, read.opened_eq]
    rfl
  | read read tells short =>
    rw [Device.opened_openFile, Device.opened_append, Device.opened_append, read.opened_eq,
      tells.opened_eq]
    rfl

theorem LoadsRom.opened_eq {ds : List Deed} (h : LoadsRom file ds) : opened ds = [file] := by
  cases h with
  | absent => rfl
  | @uploaded image ds result upload =>
    have hloads := ((Link.Upload.does_upload image 0 "ROM").journal upload).2
    rw [Device.journal_traces] at hloads
    rw [Device.opened_openFile, Device.opened_append, hloads.opened_eq]
    rfl

theorem MountsDisk.opened_eq {card card' : Disk.VirtualCard} {ds : List Deed}
    (h : MountsDisk file card ds card') : opened ds = [file] := by
  cases h with
  | absent => rfl
  | unindexed => rfl
  | @mounted image old size changed backing announced signalled slot =>
    change file :: opened (old.closing ++ [.frame .io size, .frame .io changed]) = [file]
    rw [Device.opened_append, old.opened_closing]
    rfl

/-- Loading the files of a core with a `name` opens each of them by its name, whatever became of
those before. -/
theorem LoadsNamed.namesFiles {card card' : Disk.VirtualCard} {ds : List Deed}
    {saved : Option UInt32} (h : LoadsNamed name card ds saved card') :
    NamesFiles name.toList (opened ds) := by
  have hconfig : "CFG" ∈ extensions := .head _
  have hrom : "ROM" ∈ extensions := .tail _ (.head _)
  have hdisk : "VHD" ∈ extensions := .tail _ (.tail _ (.head _))
  obtain ⟨base, hsome, hnames⟩ | ⟨hnone, hnames⟩ := fileName?_cases name
  · cases h with
    | unnamed config => cases config.symm.trans (hsome _ hconfig)
    | @named config rom disk _ _ _ _ _ config? rom? disk? loadsConfig loadsRom mountsDisk =>
      obtain rfl : config = _ := Option.some.inj (config?.symm.trans (hsome _ hconfig))
      obtain rfl : rom = _ := Option.some.inj (rom?.symm.trans (hsome _ hrom))
      obtain rfl : disk = _ := Option.some.inj (disk?.symm.trans (hsome _ hdisk))
      rw [Device.opened_append, Device.opened_append, loadsConfig.opened_eq, loadsRom.opened_eq,
        mountsDisk.opened_eq]
      exact hnames
  · cases h with
    | unnamed config => exact hnames
    | named config? => cases config?.symm.trans (hnone _ hconfig)

/-- An 8-bit core is asked its name, by which its files are named (`NamesFiles`). -/
theorem Readies.namesFiles {old : UInt32} {m' : Monitor} {card card' : Disk.VirtualCard}
    {ds : List Deed} (h : Readies old card ds m' card') :
    (∃ item, ∃ asking ∈ ds, AsksItem item asking ∧ m'.name = item.elim "" nameOf) ∧
      NamesFiles m'.name.toList (opened ds) := by
  cases h with
  | @steps config asking item asserting loading releasing _ _ _
      tells asks asserts named loads releases _ =>
    refine ⟨⟨item, asking, .tail _ (.head _), asks, named⟩, ?_⟩
    have hopened : opened (config :: asking :: (asserting ++ (loading ++ releasing))) =
        opened loading := calc
      _ = opened [config] ++ (opened [asking] ++ (opened asserting ++
            (opened loading ++ opened releasing))) := by
        simp only [← Device.opened_append, List.singleton_append]
      _ = opened loading := by
        rw [tells.opened_eq, asks.opened_eq, asserts.opened_eq, releases.opened_eq,
          List.append_nil, List.nil_append, List.nil_append, List.nil_append]
    rw [hopened]
    exact loads.namesFiles

/-- **A detection names files by the core's name alone.**  Whatever the core answers, the detection
comes to an end, so no name that it makes by `withExtension` is cut in the middle of a character.
An 8-bit core is asked its name (`AsksItem`), and that settles under what names its files are looked
for (`NamesFiles`): by three names that are each `IsEightAndThree`, or not at all. -/
theorem detection_opens (m : Monitor) (card : Disk.VirtualCard) :
    (∀ {σ : Type} (step : σ → Exchange Device → σ → Prop),
      (∀ s r, ∃ x s', step s ⟨r, x⟩ s') → ∀ s, ∃ t p s',
        (m.detect card).Run t p ∧ Trace.Along step t s s') ∧
    ∀ t m' card', (m.detect card).Run t (m', card') → m'.core = .generic8Bit →
      (∃ item, ∃ asking ∈ Device.journal t, AsksItem item asking ∧
        m'.name = item.elim "" nameOf) ∧
      NamesFiles m'.name.toList (opened (Device.journal t)) ∧
      ∀ file ∈ opened (Device.journal t), IsEightAndThree file := by
  refine ⟨fun step hstep s => Program.exists_along hstep _ s, fun t m' card' hrun hcore => ?_⟩
  obtain ⟨-, id, ds, hjournal, -, hready⟩ := (does_detection m card).journal hrun
  obtain ⟨⟨item, asking, hmem, hasks, hname⟩, hnames⟩ := (hready hcore).namesFiles
  rw [hjournal]
  exact ⟨⟨item, asking, .tail _ hmem, hasks, hname⟩, hnames, hnames.isEightAndThree⟩

/-- The `talkative` core that calls itself by a long name of nothing but the letter A has three
files. -/
theorem detection_opens_lettered :
    (∃ t p s', (({} : Monitor).detect blankCard).Run t p ∧
      Trace.Along (fun (_ : Unit) e _ => e.2 = talkative 0x13 e.1) t () s') ∧
    opened (Device.journal (detection 0x13).1) = ["AAAAAAAACFG", "AAAAAAAAROM", "AAAAAAAAVHD"] ∧
    NamesFiles (List.replicate 16 'A') (opened (Device.journal (detection 0x13).1)) ∧
    ∀ file ∈ opened (Device.journal (detection 0x13).1), IsEightAndThree file := by
  obtain ⟨hends, hopens⟩ := detection_opens {} blankCard
  have hcore : (detection 0x13).2.1.core = .generic8Bit := by decide +kernel
  have hname : (detection 0x13).2.1.name.toList = List.replicate 16 'A' := by decide +kernel
  obtain ⟨-, hnames, hfiles⟩ := hopens _ _ _ (run_detection 0x13) hcore
  rw [hname] at hnames
  refine ⟨hends _ (fun _ r => ⟨talkative 0x13 r, (), rfl⟩) (), ?_, hnames, hfiles⟩
  decide +kernel

end Core

end IoController
