import IoController.Link.Command
import IoController.Proofs.Program.Spells

/-!
# Device — Journal

A run as it looks from outside: whole frames on the link, both ways, and what is asked of the
medium, the files and the services in between.

* `Device.Deed`: one entry of such a journal; `Device.traces` are the exchanges it stands for.
* `Device.journal`: the entries of a trace.  `Device.journal_traces`: it finds them.
* `Device.Does`: what the journals of all runs of an action are like; `Device.Clocks`: what is
  clocked in a frame.
* `Device.replying`: surroundings without memory, to run an action in.
-/

namespace IoController

namespace Device

/-- Something that is seen from outside. -/
inductive Deed where
  /-- A frame: the bytes that were sent, each with the one that came back. -/
  | frame (target : Link.Target) (bytes : List (UInt8 × UInt8))
  /-- A byte that is clocked while no channel is selected. -/
  | clock (sent back : UInt8)
  | medium (request : Disk.MediumRequest) (reply : Disk.MediumReply request)
  | file (request : Disk.FileRequest) (reply : Disk.FileReply request)
  | host (request : Host.Request) (reply : Host.Reply request)

/-- The bytes of a frame, both ways. -/
def Deed.bytes : Deed → List (UInt8 × UInt8)
  | frame _ bytes => bytes
  | _ => []

/-- The byte `b` clocked out, and the one that comes back with it. -/
def clock (b : UInt8 × UInt8) : Trace Device := [⟨.link (.transfer b.1), b.2⟩]

/-- The `bytes`, clocked one after another. -/
def clocks (bytes : List (UInt8 × UInt8)) : Trace Device := bytes.flatMap clock

/-- The exchanges that a deed consists of. -/
def Deed.trace : Deed → Trace Device
  | frame target bytes =>
    ⟨.link (.select target), ()⟩ :: (clocks bytes ++ [⟨.link .deselect, ()⟩])
  | clock sent back => [⟨.link (.transfer sent), back⟩]
  | medium request reply => [⟨.medium request, reply⟩]
  | file request reply => [⟨.file request, reply⟩]
  | host request reply => [⟨.host request, reply⟩]

/-- The exchanges of the deeds `ds` in order. -/
def traces (ds : List Deed) : Trace Device := ds.flatMap Deed.trace

@[simp] theorem traces_nil : traces [] = [] := rfl

@[simp] theorem traces_cons (d : Deed) (ds : List Deed) : traces (d :: ds) = d.trace ++ traces ds :=
  rfl

@[simp] theorem traces_append (ds ds' : List Deed) : traces (ds ++ ds') = traces ds ++ traces ds' :=
  List.flatMap_append

/-! ### Reading a journal off a trace -/

/-- The deeds of a trace that begins in the frame given, if in any. -/
def journalFrom : Option (Link.Target × List (UInt8 × UInt8)) → Trace Device → List Deed
  | _, [] => []
  | _, ⟨.link (.select target), _⟩ :: t => journalFrom (some (target, [])) t
  | some (target, bytes), ⟨.link (.transfer sent), back⟩ :: t =>
    journalFrom (some (target, bytes ++ [((sent, back) : UInt8 × UInt8)])) t
  | none, ⟨.link (.transfer sent), back⟩ :: t => .clock sent back :: journalFrom none t
  | some (target, bytes), ⟨.link .deselect, _⟩ :: t => .frame target bytes :: journalFrom none t
  | none, ⟨.link .deselect, _⟩ :: t => journalFrom none t
  | open?, ⟨.medium request, reply⟩ :: t => .medium request reply :: journalFrom open? t
  | open?, ⟨.file request, reply⟩ :: t => .file request reply :: journalFrom open? t
  | open?, ⟨.host request, reply⟩ :: t => .host request reply :: journalFrom open? t

/-- The deeds of the trace `t`. -/
def journal (t : Trace Device) : List Deed := journalFrom none t

/-- Bytes that are clocked belong to the frame that was begun. -/
theorem journalFrom_clocks (target : Link.Target) (seen bytes : List (UInt8 × UInt8))
    (t : Trace Device) :
    journalFrom (some (target, seen)) (clocks bytes ++ t) =
      journalFrom (some (target, seen ++ bytes)) t := by
  induction bytes generalizing seen with
  | nil => simp [clocks]
  | cons b bytes ih =>
    have hrest := ih (seen ++ [b])
    rw [List.append_assoc] at hrest
    exact hrest

/-- A journal is what the `traces` were made from. -/
theorem journal_traces (ds : List Deed) : journal (traces ds) = ds := by
  unfold journal
  induction ds with
  | nil => rfl
  | cons d ds ih =>
    cases d with
    | frame target bytes =>
      rw [traces_cons, Deed.trace, List.cons_append, List.append_assoc]
      change journalFrom (some (target, [])) _ = _
      rw [journalFrom_clocks]
      exact congrArg (Deed.frame target bytes :: ·) ih
    | _ => exact congrArg (_ :: ·) ih

/-! ### What actions do -/

variable {α : Type}

/-- The journal of every run of `p`, with its result, satisfies `Q`. -/
abbrev Does (p : Action α) (Q : List Deed → α → Prop) : Prop := p.Spells Deed.trace Q

/-- A run is made of the deeds of its journal, which satisfy `Q`. -/
theorem Does.journal {p : Action α} {Q : List Deed → α → Prop} (h : Does p Q) {t : Trace Device}
    {a : α} (hrun : p.Run t a) : t = traces (Device.journal t) ∧ Q (Device.journal t) a := by
  obtain ⟨ds, rfl, hQ⟩ := h t a hrun
  change _ = traces (Device.journal (traces ds)) ∧ Q (Device.journal (traces ds)) a
  rw [journal_traces]
  exact ⟨rfl, hQ⟩

theorem does_medium (r : Disk.MediumRequest) :
    Does (Disk.mediumRequest r) fun ds reply => ds = [.medium r reply] := .request fun _ => rfl

theorem does_file (r : Disk.FileRequest) :
    Does (Disk.fileRequest r) fun ds reply => ds = [.file r reply] := .request fun _ => rfl

theorem does_host (r : Host.Request) :
    Does (Host.request r) fun ds reply => ds = [.host r reply] := .request fun _ => rfl

/-! ### Frames -/

/-- Every run of `p` only clocks bytes, and these, with its result, satisfy `Q`. -/
abbrev Clocks (p : Action α) (Q : List (UInt8 × UInt8) → α → Prop) : Prop := p.Spells clock Q

theorem clocks_transfer (b : UInt8) :
    Clocks (Link.transfer b) fun bytes back => bytes = [(b, back)] := .request fun _ => rfl

theorem clocks_send (sent : Bytes) :
    Clocks (Link.send sent) fun bytes _ => bytes.map (·.1) = sent := by
  induction sent with
  | nil => exact .done rfl
  | cons b sent ih =>
    refine .bind ((clocks_transfer b).mono fun bytes back hfirst => ?_)
    refine ih.mono fun bytes' _ hrest => ?_
    rw [hfirst, List.map_append, hrest]
    rfl

theorem clocks_receiveBytes (n : Nat) :
    Clocks (Link.receiveBytes n) fun bytes v => bytes = v.toList.map ((0x00, ·)) := by
  induction n with
  | zero => exact .done rfl
  | succ n ih =>
    refine .bind (ih.mono fun bytes first hfirst => ?_)
    refine .bind ((clocks_transfer _).mono fun bytes' last hlast => .done ?_)
    rw [hfirst, hlast, List.append_nil, Vector.toList_push, List.map_append]
    rfl

/-- A frame is one deed, of the bytes that its `body` clocks. -/
theorem does_framed {body : Action α} {Q : List (UInt8 × UInt8) → α → Prop} (target : Link.Target)
    (h : Clocks body Q) :
    Does (Link.framed target body) fun ds a => ∃ bytes, ds = [.frame target bytes] ∧ Q bytes a := by
  intro t b hrun
  obtain ⟨t₁, t₂, u, rfl, hselect, hrest⟩ := Program.run_bind_iff.1 hrun
  obtain ⟨t₃, t₄, a, rfl, hbody, hrest'⟩ := Program.run_bind_iff.1 hrest
  obtain ⟨t₅, t₆, u', rfl, hdeselect, hend⟩ := Program.run_bind_iff.1 hrest'
  obtain rfl := Program.run_request_iff.1 hselect
  obtain rfl := Program.run_request_iff.1 hdeselect
  obtain ⟨rfl, rfl⟩ := Program.run_done_iff.1 hend
  obtain ⟨bytes, rfl, hQ⟩ := h t₃ b hbody
  exact ⟨[.frame target bytes], by simp [Deed.trace, clocks], bytes, rfl, hQ⟩

/-- Bytes that are sent to `target` are one deed. -/
theorem does_frame (target : Link.Target) (sent : Bytes) :
    Does (Link.frame target sent) fun ds _ =>
      ∃ bytes, ds = [.frame target bytes] ∧ bytes.map (·.1) = sent :=
  does_framed target (clocks_send sent)

theorem does_command (opcode : UInt8) (payload : Bytes) :
    Does (Link.command opcode payload) fun ds _ =>
      ∃ bytes, ds = [.frame .io bytes] ∧ bytes.map (·.1) = opcode :: payload :=
  does_frame .io _

/-- A question is a frame that begins with its `opcode`. -/
theorem does_query {reply : Action α} {Q : List (UInt8 × UInt8) → α → Prop} (opcode : UInt8)
    (h : Clocks reply Q) :
    Does (Link.query opcode reply) fun ds a =>
      ∃ back bytes, ds = [.frame .io ((opcode, back) :: bytes)] ∧ Q bytes a := by
  have hbody : Clocks (do
      let _ ← Link.transfer opcode
      reply) fun bytes a => ∃ back bytes', bytes = (opcode, back) :: bytes' ∧ Q bytes' a := by
    refine .bind ((clocks_transfer opcode).mono fun bytes back hfirst => ?_)
    refine h.mono fun bytes' a hrest => ⟨back, bytes', ?_, hrest⟩
    rw [hfirst]
    rfl
  refine (does_framed .io hbody).mono fun ds a hframe => ?_
  obtain ⟨bytes, rfl, back, bytes', rfl, hQ⟩ := hframe
  exact ⟨back, bytes', rfl, hQ⟩

/-! ### Surroundings to look at -/

/-- Surroundings that answer the same request always alike: with a byte for each that is sent, by
`back`, one file `image` by every name, and one `sector` in every place. -/
def replying (back : UInt8 → UInt8) (image : Option Disk.Image)
    (sector : Except Disk.Error Disk.Sector) : (r : Device.Request) → Device.Reply r
  | .link (.select _) | .link .deselect => ()
  | .link (.transfer sent) => back sent
  | .medium (.read _) => sector
  | .medium (.write ..) => sector.map fun _ => ()
  | .file (.openFile _) => image
  | .file (.index _) | .file (.seek ..) => .ok ()
  | .file (.read _) => sector
  | .file (.write ..) => sector.map fun _ => ()
  | .file (.close _) => ()
  | .host (.readDb9 _) => ∅
  | .host .readPanel => ∅
  | .host (.setLeds ..) | .host (.osdKey _) | .host (.osdVisible _) | .host .osdReset
  | .host (.showError _) | .host (.diskActivity _) => ()

end Device

end IoController
