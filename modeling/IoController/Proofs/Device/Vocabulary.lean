import IoController.Proofs.Device.Journal

/-!
# Device — Vocabulary

What an action has to say to the core, frame by frame, and what the joystick ports say to it.

* `Device.Only`: every deed of every run satisfies a condition; one rule for each way to build an
  action.
* `Device.Uses`: nothing is clocked outside a frame, every command is one of a vocabulary, and no
  joystick port is sampled.
* `Device.Says`: nothing is clocked outside a frame, and the commands and samples, in order,
  satisfy a condition together with the result.
-/

namespace IoController.Device

variable {α β γ : Type}

/-! ### Every deed -/

/-- Every deed of every run of `p` satisfies `P`. -/
abbrev Only (P : Deed → Prop) (p : Action α) : Prop := Does p fun ds _ => ∀ d ∈ ds, P d

namespace Only

variable {P : Deed → Prop} {p : Action α} {f : α → Action β}

theorem done (a : α) : Only P (.done a) := Program.Spells.done fun _ hd => nomatch hd

theorem bind (hp : Only P p) (hf : ∀ a, Only P (f a)) : Only P (p >>= f) :=
  Program.Spells.bind_all hp hf

theorem file {r : Disk.FileRequest} (h : ∀ reply, P (.file r reply)) :
    Only P (Disk.fileRequest r) := by
  refine (does_file r).mono fun ds reply hds d hd => ?_
  rw [hds] at hd
  exact List.mem_singleton.1 hd ▸ h reply

/-- The request `r` to a service, whatever it replies. -/
theorem host {r : Host.Request} (h : ∀ reply, P (.host r reply)) : Only P (Host.request r) := by
  refine (does_host r).mono fun ds reply hds d hd => ?_
  rw [hds] at hd
  exact List.mem_singleton.1 hd ▸ h reply

theorem framed {target : Link.Target} {body : Action α} {Q : List (UInt8 × UInt8) → α → Prop}
    (hbody : Clocks body Q) (h : ∀ bytes a, Q bytes a → P (.frame target bytes)) :
    Only P (Link.framed target body) := by
  refine (does_framed target hbody).mono fun ds a hframe d hd => ?_
  obtain ⟨bytes, rfl, hQ⟩ := hframe
  exact List.mem_singleton.1 hd ▸ h bytes a hQ

/-- A frame of `sent` bytes, whatever comes back. -/
theorem frame {target : Link.Target} {sent : Bytes}
    (h : ∀ bytes, bytes.map (·.1) = sent → P (.frame target bytes)) :
    Only P (Link.frame target sent) :=
  framed (clocks_send sent) fun bytes _ => h bytes

theorem command {opcode : UInt8} {payload : Bytes}
    (h : ∀ bytes, bytes.map (·.1) = opcode :: payload → P (.frame .io bytes)) :
    Only P (Link.command opcode payload) := frame h

theorem query {opcode : UInt8} {reply : Action α} (hreply : Clocks reply fun _ _ => True)
    (h : ∀ back bytes, P (.frame .io ((opcode, back) :: bytes))) :
    Only P (Link.query opcode reply) := by
  refine (does_query opcode hreply).mono fun ds a hquery d hd => ?_
  obtain ⟨back, bytes, rfl, -⟩ := hquery
  exact List.mem_singleton.1 hd ▸ h back bytes

end Only

/-! ### Words -/

/-- What the core is told, and what a joystick `port` tells. -/
inductive Word where
  /-- A frame of the command channel, as it is sent: an opcode and its payload. -/
  | command (sent : Bytes)
  | sample (port : Nat) (state : Joystick.State)

/-- The command or the sample that the deed is. -/
def Deed.word? : Deed → Option Word
  | .frame .io bytes => some (.command (bytes.map (·.1)))
  | .host (.readDb9 port) state => some (.sample port state)
  | _ => none

/-- The commands and samples of the journal `ds`, in order. -/
def words (ds : List Deed) : List Word := ds.filterMap Deed.word?

@[simp] theorem words_nil : words [] = [] := rfl

@[simp] theorem words_append (ds ds' : List Deed) : words (ds ++ ds') = words ds ++ words ds' :=
  List.filterMap_append

/-- Whether the deed is no byte that is clocked outside a frame. -/
def Deed.isFramed : Deed → Bool
  | .clock .. => false
  | _ => true

/-! ### A vocabulary -/

/-- Whether a word is a command of the `vocabulary`. -/
def Word.isOf (vocabulary : List UInt8) : Word → Bool
  | .command (opcode :: _) => opcode ∈ vocabulary
  | _ => false

/-- Whether the deed is no byte that is clocked outside a frame, and no word but a command of the
`vocabulary`. -/
def Deed.isWithin (vocabulary : List UInt8) (d : Deed) : Bool :=
  d.isFramed && d.word?.all (·.isOf vocabulary)

/-- Nothing is clocked outside a frame, every command is one of the `vocabulary`, and no joystick
port is sampled. -/
abbrev Uses (vocabulary : List UInt8) (p : Action α) : Prop :=
  Only (·.isWithin vocabulary = true) p

section Uses

variable {vocabulary : List UInt8}

/-- A command of the `vocabulary` is within it. -/
theorem isWithin_frame {opcode : UInt8} (h : opcode ∈ vocabulary) {payload : Bytes}
    {bytes : List (UInt8 × UInt8)} (hsent : bytes.map (·.1) = opcode :: payload) :
    (Deed.frame .io bytes).isWithin vocabulary = true := by
  simpa [Deed.isWithin, Deed.isFramed, Deed.word?, hsent, Word.isOf] using h

theorem isWithin_cons {opcode : UInt8} (h : opcode ∈ vocabulary) (back : UInt8)
    (bytes : List (UInt8 × UInt8)) :
    (Deed.frame .io ((opcode, back) :: bytes)).isWithin vocabulary = true := isWithin_frame h rfl

namespace Uses

/-- A question of the `vocabulary` keeps to it. -/
theorem query {opcode : UInt8} {reply : Action α} (h : opcode ∈ vocabulary)
    (hreply : Clocks reply fun _ _ => True) : Uses vocabulary (Link.query opcode reply) :=
  Only.query hreply (isWithin_cons h)

end Uses

/-- Every word of `ws` is a command of the `vocabulary`. -/
def Within (vocabulary : List UInt8) (ws : List Word) : Prop :=
  ∀ w ∈ ws, ∃ opcode ∈ vocabulary, ∃ payload, w = .command (opcode :: payload)

theorem Within.nil : Within vocabulary [] := fun _ hw => nomatch hw

theorem Within.command {opcode : UInt8} (h : opcode ∈ vocabulary) (payload : Bytes) :
    Within vocabulary [.command (opcode :: payload)] :=
  fun _ hw => ⟨opcode, h, payload, List.mem_singleton.1 hw⟩

theorem within_words {ds : List Deed} (h : ∀ d ∈ ds, d.isWithin vocabulary = true) :
    Within vocabulary (words ds) := by
  intro w hw
  obtain ⟨d, hd, hword⟩ := List.mem_filterMap.1 hw
  have hof : w.isOf vocabulary = true := by
    have hwithin := (Bool.and_eq_true_iff.1 (h d hd)).2
    rw [hword] at hwithin
    exact hwithin
  cases w with
  | sample port state => cases hof
  | command sent =>
    cases sent with
    | nil => cases hof
    | cons opcode payload => exact ⟨opcode, of_decide_eq_true hof, payload, rfl⟩

/-- What is seen of no command of the `vocabulary` is not seen. -/
theorem Within.filterMap_eq_nil {ws : List Word} {seen : Word → Option β}
    (h : Within vocabulary ws)
    (hseen : ∀ opcode ∈ vocabulary, ∀ payload, seen (.command (opcode :: payload)) = none) :
    ws.filterMap seen = [] := by
  refine List.filterMap_eq_nil_iff.2 fun w hw => ?_
  obtain ⟨opcode, hopcode, payload, rfl⟩ := h w hw
  exact hseen opcode hopcode payload

end Uses

/-! ### Words in order -/

/-- Nothing is clocked outside a frame, and the commands and samples of every run of `p`, in order,
satisfy `Q` together with its result. -/
def Says (p : Action α) (Q : List Word → α → Prop) : Prop :=
  Does p fun ds a => (∀ d ∈ ds, d.isFramed = true) ∧ Q (words ds) a

namespace Says

variable {p : Action α} {f : α → Action β} {Q Q' : List Word → α → Prop}
  {R : List Word → β → Prop}

theorem done {a : α} (h : Q [] a) : Says (.done a) Q :=
  Program.Spells.done ⟨fun _ hd => (nomatch hd), h⟩

theorem bind (h : Says p fun ws a => Says (f a) fun ws' b => R (ws ++ ws') b) :
    Says (p >>= f) R := by
  refine Program.Spells.bind (h.mono fun ds a hfirst => hfirst.2.mono fun ds' b hrest => ?_)
  rw [words_append]
  exact ⟨fun d hd => (List.mem_append.1 hd).elim (hfirst.1 d) (hrest.1 d), hrest.2⟩

/-- What is said satisfies whatever follows from `Q`. -/
theorem mono (h : Says p Q) (himp : ∀ ws a, Q ws a → Q' ws a) : Says p Q' :=
  Program.Spells.mono h fun ds a hQ => ⟨hQ.1, himp (words ds) a hQ.2⟩

/-- The request `r` to a service that is no joystick port. -/
theorem host {r : Host.Request} (h : ∀ reply, (Deed.host r reply).word? = none) :
    Says (Host.request r) fun ws _ => ws = [] := by
  refine (does_host r).mono fun ds reply hds => ?_
  rw [hds]
  exact ⟨fun d hd => List.mem_singleton.1 hd ▸ rfl, List.filterMap_cons_none (h reply)⟩

/-- To sample a joystick `port` is one word. -/
theorem sample (port : Nat) :
    Says (Host.request (.readDb9 port)) fun ws state => ws = [.sample port state] := by
  refine (does_host _).mono fun ds reply hds => ?_
  rw [hds]
  exact ⟨fun d hd => List.mem_singleton.1 hd ▸ rfl, rfl⟩

theorem command (opcode : UInt8) (payload : Bytes) :
    Says (Link.command opcode payload) fun ws _ => ws = [.command (opcode :: payload)] := by
  refine (does_command opcode payload).mono fun ds _ hframe => ?_
  obtain ⟨bytes, rfl, hsent⟩ := hframe
  exact ⟨fun d hd => List.mem_singleton.1 hd ▸ rfl, congrArg (fun m => [Word.command m]) hsent⟩

end Says

/-- What keeps to a `vocabulary` says nothing else. -/
theorem Uses.within {vocabulary : List UInt8} {p : Action α} (h : Uses vocabulary p) :
    Says p fun ws _ => Within vocabulary ws :=
  Program.Spells.mono h fun _ _ hds =>
    ⟨fun d hd => (Bool.and_eq_true_iff.1 (hds d hd)).1, within_words hds⟩

end IoController.Device
