import IoController.Proofs.Device.Answers
import IoController.Proofs.Disk.Bounds
import IoController.Proofs.Disk.World
import Mathlib.Data.List.Nodup

/-!
# Disk — SectorsRead

Which sectors are read in a run from what stores them.

* `sectorsRead`: the sectors, in order.  A file is read where it stands, so it is followed where
  each file stands.
* `ReadsJust`: that does not depend on where the files stood before.
* `Faultless`: nothing that stores sectors fails.
* `sectors`: sectors one after another, as far as there are.
-/

namespace IoController.Disk

open Device (Deed Does traces)

/-! ### Sectors that are read -/

/-- The sector that is read in an exchange, if one is, by where the files stand (`position`). -/
def sector? (position : File → UInt32) : Exchange Device → Option (Backing × UInt32)
  | ⟨.medium (.read lba), _⟩ => some (.medium, lba)
  | ⟨.file (.read f), _⟩ => some (.file f, position f)
  | _ => none

/-- Where the files stand after an exchange that finds them at `position`. -/
def moved (position : File → UInt32) : Exchange Device → File → UInt32
  | ⟨.file (.seek f lba), .ok _⟩ => Function.update position f lba
  | ⟨.file (.read f), .ok _⟩ => Function.update position f (position f + 1)
  | ⟨.file (.write f _), .ok _⟩ => Function.update position f (position f + 1)
  | _ => position

/-- The sectors that are read in a run that finds the files at `position`, in order, and where they
are stored. -/
def sectorsRead (position : File → UInt32) : Trace Device → List (Backing × UInt32)
  | [] => []
  | x :: t => (sector? position x).toList ++ sectorsRead (moved position x) t

/-- Wherever the files stand, `t` reads these sectors. -/
def ReadsJust (t : Trace Device) (sectors : List (Backing × UInt32)) : Prop :=
  ∀ position, sectorsRead position t = sectors

/-- The sectors of runs in a row, the later from where the files stand by then (`moved`). -/
theorem sectorsRead_append (position : File → UInt32) (t t' : Trace Device) :
    sectorsRead position (t ++ t') =
      sectorsRead position t ++ sectorsRead (t.foldl moved position) t' := by
  induction t generalizing position with
  | nil => rfl
  | cons x t ih => rw [List.cons_append, sectorsRead, ih, ← List.append_assoc]; rfl

theorem ReadsJust.append {t t' : Trace Device} {l l' : List (Backing × UInt32)}
    (h : ReadsJust t l) (h' : ReadsJust t' l') : ReadsJust (t ++ t') (l ++ l') := by
  intro position
  rw [sectorsRead_append, h, h']

/-- What does not store sectors has none to read (`ReadsJust`). -/
theorem readsJust_of_idle {ds : List Deed} (h : ∀ d ∈ ds, Cache.isStorage d = false) :
    ReadsJust (traces ds) [] := by
  induction ds with
  | nil => exact fun _ => rfl
  | cons d ds ih =>
    have hrest := ih fun d hd => h d (List.mem_cons_of_mem _ hd)
    refine ReadsJust.append (l := []) (fun position => ?_) hrest
    have hidle := h d List.mem_cons_self
    cases d with
    | frame target bytes =>
      have hclocks : ∀ bytes, ReadsJust (Device.clocks bytes ++ [⟨.link .deselect, ()⟩]) [] := by
        intro bytes position
        induction bytes with
        | nil => rfl
        | cons b bytes ih => exact ih
      exact hclocks bytes position
    | clock sent back => rfl
    | host request reply => rfl
    | medium request reply => cases hidle
    | file request reply => cases hidle

/-! ### Runs without failures -/

/-- Something that stores sectors failed. -/
def isFault : Device.Answer → Bool
  | .sector (.error _) | .outcome (.error _) => true
  | _ => false

/-- Nothing that stores sectors fails in `t`. -/
def Faultless (t : Trace Device) : Prop := ∀ x ∈ t, (Device.answer? x).any isFault = false

instance (t : Trace Device) : Decidable (Faultless t) :=
  inferInstanceAs (Decidable (∀ x ∈ t, _))

theorem faultless_append_iff {t t' : Trace Device} :
    Faultless (t ++ t') ↔ Faultless t ∧ Faultless t' := List.forall_mem_append

theorem Faultless.within (before after : List Deed) {ds : List Deed}
    (h : Faultless (traces (before ++ (ds ++ after)))) : Faultless (traces ds) := by
  rw [Device.traces_append, Device.traces_append, faultless_append_iff, faultless_append_iff] at h
  exact h.2.1

/-! ### Sectors in order -/

/-- The sectors of `b` from number `lo` to before `hi`, as far as there are, which is `n`. -/
def sectors (b : Backing) (n : UInt32) (lo hi : Nat) : List (Backing × UInt32) :=
  (List.range' lo (min hi n.toNat - lo)).map fun i => (b, .ofNat i)

section Sectors

variable {b : Backing} {n : UInt32} {lo m hi i : Nat}

theorem sectors_append (hlo : lo ≤ m) (hhi : m ≤ hi) :
    sectors b n lo m ++ sectors b n m hi = sectors b n lo hi := by
  obtain ⟨k, rfl⟩ := Nat.exists_eq_add_of_le hlo
  unfold sectors
  by_cases hm : lo + k ≤ n.toNat
  · have hfirst : min (lo + k) n.toNat - lo = k := by omega
    have hall : min hi n.toNat - lo = k + (min hi n.toNat - (lo + k)) := by omega
    rw [← List.map_append, hfirst, hall, List.range'_append_1]
  · -- there is nothing from the middle on
    have hnone : min hi n.toNat - (lo + k) = 0 := by omega
    have hall : min hi n.toNat - lo = min (lo + k) n.toNat - lo := by omega
    rw [hnone, hall]
    exact List.append_nil _

theorem sectors_single (hi : i < n.toNat) : sectors b n i (i + 1) = [(b, .ofNat i)] := by
  have hone : min (i + 1) n.toNat - i = 1 := by omega
  rw [sectors, hone]
  rfl

theorem sectors_none (h : min hi n.toNat ≤ lo) : sectors b n lo hi = [] := by
  have hnone : min hi n.toNat - lo = 0 := by omega
  rw [sectors, hnone]
  rfl

theorem length_sectors_le (b : Backing) (n : UInt32) (lo hi : Nat) :
    (sectors b n lo hi).length ≤ hi - lo := by
  rw [sectors, List.length_map, List.length_range']
  omega

theorem nodup_sectors (b : Backing) (n : UInt32) (lo hi : Nat) : (sectors b n lo hi).Nodup := by
  refine List.Nodup.map_on (fun i hi' j hj heq => ?_) (List.nodup_range' ..)
  have hn : n.toNat < UInt32.size := n.toNat_lt
  rw [List.mem_range'_1] at hi' hj
  have hword : UInt32.ofNat i = .ofNat j := (Prod.mk.inj heq).2
  rw [← UInt32.toNat_inj, UInt32.toNat_ofNat_of_lt' (by omega),
    UInt32.toNat_ofNat_of_lt' (by omega)] at hword
  exact hword

end Sectors

/-! ### Loading a sector -/

namespace Cache

variable {lba : UInt32} {s : Source} {ds : List Deed}

theorem Loads.not_faultless {e : Error} (h : Loads lba s ds (.error e)) :
    ¬ Faultless (traces ds) := by
  intro hsound
  cases h with
  | medium => cases hsound _ List.mem_cons_self
  | unsought => cases hsound _ List.mem_cons_self
  | image => cases hsound _ (List.mem_cons_of_mem _ List.mem_cons_self)

theorem Loads.readsJust {data : Sector} (h : Loads lba s ds (.ok data)) :
    ReadsJust (traces ds) [(s.backing, lba)] := by
  intro position
  cases h with
  | medium => rfl
  | @image i =>
    -- the file is read where the seek before has put it
    exact congrArg (fun place => [(Backing.file i.file, place)]) (Function.update_self ..)

/-- A `load` that does not fail reads the sector and keeps it. -/
theorem does_loadFaultless (c : Cache) (s : Source) (drive : UInt8) (hlba : lba ≠ reservedLba) :
    Does (c.load s drive lba) fun ds p => Faultless (traces ds) →
      ReadsJust (traces ds) [(s.backing, lba)] ∧
        ∃ data, p = (.ok data, { c with entry := some ⟨drive, lba, data⟩ }) := by
  refine .bind ((does_sourceRead s lba).mono fun ds reply hloads => ?_)
  cases reply with
  | error e =>
    refine .done fun hsound => ?_
    rw [List.append_nil] at hsound
    exact absurd hsound hloads.not_faultless
  | ok data =>
    refine .done fun _ => ?_
    rw [List.append_nil, keep, if_neg hlba]
    exact ⟨hloads.readsJust, data, rfl⟩

end Cache

end IoController.Disk
