import IoController.Proofs.Device.Vocabulary
import IoController.Proofs.Link.Traffic

/-!
# Device — Frames

What of a journal the core sees, and what the files see.

* `Device.frames`: what is sent, frame by frame, and the channel that each frame goes to.
* `Device.traffic_traces`: in whole frames that is all that is asked of the link.
* `Device.files`, `Device.fileErrors`: what is asked of the files, and how they fail.
-/

namespace IoController.Device

/-! ### Frames -/

/-- What is sent in a frame, and the channel that it is sent to. -/
def Deed.frame? : Deed → Option (Link.Target × Bytes)
  | .frame target bytes => some (target, bytes.map (·.1))
  | _ => none

/-- The frames of the journal `ds`, in order. -/
def frames (ds : List Deed) : List (Link.Target × Bytes) := ds.filterMap Deed.frame?

@[simp] theorem frames_frame (target : Link.Target) (bytes : List (UInt8 × UInt8))
    (ds : List Deed) :
    frames (.frame target bytes :: ds) = (target, bytes.map (·.1)) :: frames ds := rfl

@[simp] theorem frames_file (request : Disk.FileRequest) (reply : Disk.FileReply request)
    (ds : List Deed) : frames (.file request reply :: ds) = frames ds := rfl

@[simp] theorem frames_append (ds ds' : List Deed) : frames (ds ++ ds') = frames ds ++ frames ds' :=
  List.filterMap_append

/-- What is asked of the link to clock `bytes`. -/
theorem traffic_clocks (bytes : List (UInt8 × UInt8)) :
    Link.traffic (clocks bytes) = (bytes.map (·.1)).map .transfer := by
  induction bytes with
  | nil => rfl
  | cons b bytes ih => exact congrArg (.transfer b.1 :: ·) ih

theorem traffic_frame (target : Link.Target) (bytes : List (UInt8 × UInt8)) :
    Link.traffic (Deed.frame target bytes).trace = Link.framing target (bytes.map (·.1)) := by
  change .select target :: Link.traffic (clocks bytes ++ _) = _
  rw [Link.traffic_append, traffic_clocks]
  rfl

/-- If nothing is clocked outside a frame, the `frames` are all that is asked of the link. -/
theorem traffic_traces {ds : List Deed} (h : ∀ d ∈ ds, d.isFramed = true) :
    Link.traffic (traces ds) = (frames ds).flatMap fun f => Link.framing f.1 f.2 := by
  induction ds with
  | nil => rfl
  | cons d ds ih =>
    have hrest := ih fun d hd => h d (List.mem_cons_of_mem _ hd)
    rw [traces_cons, Link.traffic_append, hrest]
    cases d with
    | frame target bytes => rw [traffic_frame]; rfl
    | clock sent back => exact absurd (h _ List.mem_cons_self) Bool.false_ne_true
    | _ => rfl

/-! ### Files -/

/-- Whether the deed asks something of a file. -/
def Deed.isFile : Deed → Bool
  | file _ _ => true
  | _ => false

/-- What is asked of the files in the journal `ds`, in order, with the replies. -/
def files (ds : List Deed) : List Deed := ds.filter (·.isFile)

@[simp] theorem files_nil : files [] = [] := rfl

@[simp] theorem files_frame (target : Link.Target) (bytes : List (UInt8 × UInt8))
    (ds : List Deed) : files (.frame target bytes :: ds) = files ds := rfl

@[simp] theorem files_file (request : Disk.FileRequest) (reply : Disk.FileReply request)
    (ds : List Deed) : files (.file request reply :: ds) = .file request reply :: files ds := rfl

@[simp] theorem files_append (ds ds' : List Deed) : files (ds ++ ds') = files ds ++ files ds' :=
  List.filter_append _ _

/-- The error that a file answers the deed with. -/
def Deed.fileError? : Deed → Option Disk.Error
  | .file (.index _) (.error e) | .file (.seek _ _) (.error e) | .file (.read _) (.error e)
  | .file (.write _ _) (.error e) => some e
  | _ => none

/-- How files fail in the journal `ds`, in order. -/
def fileErrors (ds : List Deed) : List Disk.Error := ds.filterMap Deed.fileError?

theorem fileErrors_append (ds ds' : List Deed) :
    fileErrors (ds ++ ds') = fileErrors ds ++ fileErrors ds' := List.filterMap_append

end IoController.Device
