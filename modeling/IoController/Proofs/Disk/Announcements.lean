import IoController.Disk.VirtualCard
import IoController.Proofs.Bits
import IoController.Proofs.Device.Frames
import IoController.Proofs.Disk.Bounds
import IoController.Proofs.Program.Ensures
import Mathlib.Data.List.Basic

/-!
# Disk — Announcements

What the core is told when an image is put into a drive or taken out of it.

* `VirtualCard.Mounts`: all that a mount does.
* `VirtualCard.Announces`: the two frames of an announcement, and the size that they give.
* `VirtualCard.size_announced_iff`: the size that is announced is the image's if that fits in 32
  bits, and otherwise what is left of it there; a mount that fails says nothing.
-/

namespace IoController

open Device (Deed Does traces)

/-- To announce a disk takes two frames: its `size`, and the `drive`. -/
theorem Link.does_announceDisk (drive : UInt8) (size : UInt32) :
    Does (Link.announceDisk drive size) fun ds _ => ∃ bytes bytes',
      ds = [.frame .io bytes, .frame .io bytes'] ∧
        bytes.map (·.1) = 0x1d :: (Bytes.littleEndian size ++ List.replicate 12 0) ∧
        bytes'.map (·.1) = [0x1c, drive] := by
  refine .bind ((Device.does_command _ _).mono fun ds _ hsize => ?_)
  obtain ⟨bytes, rfl, hsent⟩ := hsize
  refine (Device.does_command _ _).mono fun ds' _ hchanged => ?_
  obtain ⟨bytes', rfl, hsent'⟩ := hchanged
  exact ⟨bytes, bytes', rfl, hsent, hsent'⟩

namespace Disk.VirtualCard

variable {v v' : VirtualCard} {drive : UInt8} {image : Image} {t t' : Trace Device}

/-! ### Mounting -/

/-- A mount: the `image` is tried, and if it takes its place the core is told. -/
inductive Mounts (v : VirtualCard) (drive : UInt8) (image : Image) :
    List Deed → Except Error Unit × VirtualCard → Prop where
  | failed {ds : List Deed} {e : Error}
      (tried : v.cache.Mounts drive image ds (.error e, v.cache)) :
      Mounts v drive image ds (.error e, v)
  | mounted {ds : List Deed} {cache : Cache} {size changed : List (UInt8 × UInt8)}
      (tried : v.cache.Mounts drive image ds (.ok (), cache))
      (announced : size.map (·.1) =
        0x1d :: (Bytes.littleEndian image.length.toUInt32 ++ List.replicate 12 0))
      (signalled : changed.map (·.1) = [0x1c, drive]) :
      Mounts v drive image (ds ++ [.frame .io size, .frame .io changed])
        (.ok (), { cache, warned := false })

/-- A mount goes as `Mounts` says. -/
theorem does_mount (v : VirtualCard) (drive : UInt8) (image : Image) :
    Does (v.mount drive image) (v.Mounts drive image) := by
  refine .bind ((v.cache.does_mount drive image).mono fun ds p hmounts => ?_)
  obtain ⟨reply, cache⟩ := p
  cases reply with
  | error e =>
    -- whatever goes wrong, the cache is what it was
    obtain rfl : cache = v.cache := by cases hmounts <;> rfl
    refine .done ?_
    rw [List.append_nil]
    exact .failed hmounts
  | ok u =>
    refine .bind ((Link.does_announceDisk drive _).mono fun ds' _ hannounced => .done ?_)
    obtain ⟨size, changed, rfl, hsize, hchanged⟩ := hannounced
    rw [List.append_nil]
    exact .mounted hmounts hsize hchanged

/-- An unmount: the `drive` is not there, or whatever is behind it makes way for the medium and the
core is told of a disk without a `size`. -/
inductive Unmounts (v : VirtualCard) (drive : UInt8) :
    List Deed → Except Error (Option Image) × VirtualCard → Prop where
  | failed {e : Error} : Unmounts v drive [] (.error e, v)
  | unmounted {image? : Option Image} {cache : Cache} {size changed : List (UInt8 × UInt8)}
      (took : v.cache.unmount drive = .ok (image?, cache))
      (announced : size.map (·.1) = 0x1d :: (Bytes.littleEndian 0 ++ List.replicate 12 0))
      (signalled : changed.map (·.1) = [0x1c, drive]) :
      Unmounts v drive [.frame .io size, .frame .io changed]
        (.ok image?, { cache, warned := false })

/-- An unmount goes as `Unmounts` says. -/
theorem does_unmount (v : VirtualCard) (drive : UInt8) :
    Does (v.unmount drive) (v.Unmounts drive) := by
  unfold unmount
  cases htook : v.cache.unmount drive with
  | error e => exact .done .failed
  | ok p =>
    obtain ⟨image?, cache⟩ := p
    refine .bind ((Link.does_announceDisk drive 0).mono fun ds _ hannounced => .done ?_)
    obtain ⟨size, changed, rfl, hsize, hchanged⟩ := hannounced
    exact .unmounted htook hsize hchanged

/-! ### Announcing -/

/-- What is asked of the link to tell the core of a disk in `drive`. -/
def announcement (drive : UInt8) (size : UInt32) : List Link.Request :=
  Link.framing .io (0x1d :: (Bytes.littleEndian size ++ List.replicate 12 0)) ++
    Link.framing .io [0x1c, drive]

/-- The core is told of a disk in `drive`: first its `size`, in sixteen bytes of which the lowest
comes first, and then which drive it is.  Nothing else is said. -/
def Announces (drive : UInt8) (size : Nat) (t : Trace Device) : Prop :=
  ∃ payload : Bytes, payload.length = 16 ∧ Nat.ofDigits 256 (payload.map (·.toNat)) = size ∧
    Link.traffic t = Link.framing .io (0x1d :: payload) ++ Link.framing .io [0x1c, drive]

/-- The `announcement` tells the core of the size that it is given. -/
theorem announces_announcement {size : UInt32} (h : Link.traffic t = announcement drive size) :
    Announces drive size.toNat t := by
  refine ⟨_, rfl, ?_, h⟩
  rw [List.map_append, Nat.ofDigits_append, Bytes.ofDigits_littleEndian]
  rfl

/-- What is said settles the `size`. -/
theorem Announces.size_eq {size size' : Nat} (h : Announces drive size t)
    (h' : Announces drive size' t') (hsame : Link.traffic t = Link.traffic t') : size = size' := by
  obtain ⟨payload, hlength, rfl, htraffic⟩ := h
  obtain ⟨payload', hlength', rfl, htraffic'⟩ := h'
  -- the payloads stand in the same place, and one is as long as the other
  have hframes := List.append_inj (htraffic.symm.trans (hsame.trans htraffic')) (by
    simp [Link.framing, hlength, hlength'])
  have hpayload : payload.map Link.Request.transfer = payload'.map .transfer := by
    simpa [Link.framing] using hframes.1
  rw [List.map_injective_iff.2 (fun _ _ => Link.Request.transfer.inj) hpayload]

theorem traffic_of_storage {ds : List Deed} (h : ∀ d ∈ ds, Cache.isStorage d = true) :
    Link.traffic (traces ds) = [] := by
  rw [Link.traffic, traces, List.filterMap_flatMap]
  refine List.flatMap_eq_nil_iff.2 fun d hd => ?_
  exact Cache.of_isStorage (P := fun d => Link.traffic d.trace = []) (fun _ _ => rfl)
    (fun _ _ => rfl) (h d hd)

/-- The two frames that were sent are the `announcement`. -/
theorem traffic_announced {size changed : List (UInt8 × UInt8)} {length : UInt32}
    (announced : size.map (·.1) = 0x1d :: (Bytes.littleEndian length ++ List.replicate 12 0))
    (signalled : changed.map (·.1) = [0x1c, drive]) :
    Link.traffic (traces [.frame .io size, .frame .io changed]) = announcement drive length := by
  rw [Device.traces_cons, Device.traces_cons, Device.traces_nil, List.append_nil,
    Link.traffic_append,
    Device.traffic_frame, Device.traffic_frame, announced, signalled]
  rfl

/-- A mount that fails says nothing, and one that succeeds gives the size of the `image` as far as
it goes into a word. -/
theorem Mounts.traffic {ds : List Deed} {p : Except Error Unit × VirtualCard}
    (h : v.Mounts drive image ds p) :
    Link.traffic (traces ds) =
      if p.1.isOk then announcement drive image.length.toUInt32 else [] := by
  cases h with
  | failed tried => exact traffic_of_storage tried.isStorage
  | mounted tried announced signalled =>
    rw [Device.traces_append, Link.traffic_append, traffic_of_storage tried.isStorage,
      traffic_announced announced signalled]
    rfl

/-- An unmount (`Unmounts`) that fails says nothing, and one that succeeds gives no size. -/
theorem Unmounts.traffic {ds : List Deed} {p : Except Error (Option Image) × VirtualCard}
    (h : v.Unmounts drive ds p) :
    Link.traffic (traces ds) = if p.1.isOk then announcement drive 0 else [] := by
  cases h with
  | failed => rfl
  | unmounted took announced signalled => exact traffic_announced announced signalled

theorem traffic_mount {reply : Except Error Unit} (hrun : (v.mount drive image).Run t (reply, v')) :
    Link.traffic t = if reply.isOk then announcement drive image.length.toUInt32 else [] := by
  obtain ⟨ds, rfl, hmounts⟩ := does_mount v drive image t (reply, v') hrun
  exact hmounts.traffic

/-- A mount that succeeds announces the size of the `image` in 32 bits. -/
theorem announces_of_mounted (hrun : (v.mount drive image).Run t (.ok (), v')) :
    Announces drive (image.length.toNat % 2 ^ 32) t := by
  rw [← UInt64.toNat_toUInt32]
  exact announces_announcement (traffic_mount hrun)

/-- **The size of a disk.**  A mount that succeeds `Announces` the image's size, without what does
not fit in 32 bits, and then the drive: so it is the true size just if that fits.  An unmount that
succeeds announces a size of 0, and what fails tells the core nothing.  Two images are announced
alike just if their sizes are the same in 32 bits. -/
theorem size_announced_iff (v : VirtualCard) (drive : UInt8) :
    (∀ image t reply v', (v.mount drive image).Run t (reply, v') →
      (∀ e, reply = .error e → Link.traffic t = []) ∧
      (reply = .ok () → Announces drive (image.length.toNat % 2 ^ 32) t ∧
        (Announces drive image.length.toNat t ↔ image.length.toNat < 2 ^ 32))) ∧
    (∀ t reply v', (v.unmount drive).Run t (reply, v') →
      (∀ e, reply = .error e → Link.traffic t = []) ∧
      ∀ image?, reply = .ok image? → Announces drive 0 t) ∧
    ∀ (w : VirtualCard) (image image' : Image) t t' v' w',
      (v.mount drive image).Run t (.ok (), v') → (w.mount drive image').Run t' (.ok (), w') →
        (Link.traffic t = Link.traffic t' ↔
          image.length.toNat % 2 ^ 32 = image'.length.toNat % 2 ^ 32) := by
  refine ⟨fun image t reply v' hrun => ⟨?_, ?_⟩, fun t reply v' hrun => ?_,
    fun w image image' t t' v' w' hrun hrun' => ⟨fun hsame => ?_, fun hsizes => ?_⟩⟩
  · rintro e rfl
    exact traffic_mount hrun
  · rintro rfl
    have htold := announces_of_mounted hrun
    refine ⟨htold, fun htrue => ?_, fun hfits => ?_⟩
    · rw [htrue.size_eq htold rfl]
      exact Nat.mod_lt _ (by decide)
    · rwa [Nat.mod_eq_of_lt hfits] at htold
  · obtain ⟨ds, rfl, hunmounts⟩ := does_unmount v drive t (reply, v') hrun
    refine ⟨?_, ?_⟩
    · rintro e rfl
      exact hunmounts.traffic
    · rintro image? rfl
      exact announces_announcement hunmounts.traffic
  · exact (announces_of_mounted hrun).size_eq (announces_of_mounted hrun') hsame
  · have hword : image.length.toUInt32 = image'.length.toUInt32 := by
      rw [← UInt32.toNat_inj, UInt64.toNat_toUInt32, UInt64.toNat_toUInt32]
      exact hsizes
    rw [traffic_mount hrun, traffic_mount hrun', hword]

/-- Both drives have a `medium` of 64 sectors, and images are always indexed. -/
def vacant : VirtualCard := { cache := { medium := ⟨64, true⟩ } }

/-- Surroundings in which images are always indexed. -/
def indexing : (r : Device.Request) → Device.Reply r :=
  Device.replying (fun _ => 0) none (.error .io)

theorem run_mount_vacant (image : Image) :
    ((vacant.mount 0 image).record indexing).2.1 = .ok () := rfl

/-- An image of four gigabytes is announced (`Announces`) just as no image is. -/
theorem four_gigabytes_as_none :
    ∃ t v', (vacant.mount 0 ⟨⟨1⟩, 0x100000000⟩).Run t (.ok (), v') ∧
      Announces 0 0 t ∧ ¬ Announces 0 0x100000000 t := by
  have hrun := Program.run_record_of_fst (run_mount_vacant ⟨⟨1⟩, 0x100000000⟩)
  have htold := announces_of_mounted hrun
  refine ⟨_, _, hrun, htold, fun htrue => ?_⟩
  exact absurd (htrue.size_eq htold rfl) (by decide)

/-- An image of three sectors is announced (`Announces`) as what it is, and so is one of four
gigabytes more. -/
theorem size_announced_iff_alike :
    ∃ t t' v' w', (vacant.mount 0 ⟨⟨1⟩, 0x600⟩).Run t (.ok (), v') ∧
      (vacant.mount 0 ⟨⟨2⟩, 0x100000600⟩).Run t' (.ok (), w') ∧
      Announces 0 0x600 t ∧ Link.traffic t = Link.traffic t' := by
  have hrun := Program.run_record_of_fst (run_mount_vacant ⟨⟨1⟩, 0x600⟩)
  have hrun' := Program.run_record_of_fst (run_mount_vacant ⟨⟨2⟩, 0x100000600⟩)
  obtain ⟨hmounts, -, hpairs⟩ := size_announced_iff vacant 0
  refine ⟨_, _, _, _, hrun, hrun', ((hmounts _ _ _ _ hrun).2 rfl).1, ?_⟩
  exact (hpairs _ _ _ _ _ _ _ hrun hrun').2 rfl

end Disk.VirtualCard

end IoController
