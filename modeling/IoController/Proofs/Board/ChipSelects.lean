import IoController.Board.SpiBus
import IoController.Proofs.Device.Vocabulary
import Mathlib.Data.List.Infix

/-!
# Board — ChipSelects

The chip selects of the FPGA's channels, while what is asked of the link is carried out on the bus.

* `SpiBus.Lines`: which chip selects are high; `SpiBus.Lines.after`: what becomes of them.
* `SpiBus.Carries`: the exchanges of a bus that carry out a trace.
* `SpiBus.Tidy`: at most one chip select is low at any moment, and none is at the end.
* `SpiBus.tidy_traces`: what is done in whole frames is tidy, if the pins work.
-/

namespace IoController.SpiBus

open Device (Deed traces)

/-! ### The lines -/

/-- Whether each chip select is high. -/
abbrev Lines := Link.Target → Bool

namespace Lines

/-- A pin that works takes the level that it is set to; the other `lines` stay. -/
def drive (lines : Lines) : Exchange SpiBus → Lines
  | ⟨.setSelect target high, true⟩ => fun t => if t = target then high else lines t
  | _ => lines

/-- The chip selects after the exchanges `w`, each of which may `drive` one. -/
def after (lines : Lines) (w : Trace SpiBus) : Lines := w.foldl drive lines

/-- No channel is selected. -/
def idle : Lines := fun _ => true

/-- At most one of the chip selects is low on the `lines`. -/
def Exclusive (lines : Lines) : Prop :=
  ∀ a b, lines a = false → lines b = false → a = b

theorem after_append (lines : Lines) (w w' : Trace SpiBus) :
    lines.after (w ++ w') = (lines.after w).after w' := List.foldl_append

end Lines

/-- Whether a pin that is set has worked. -/
def worked : Exchange SpiBus → Bool
  | ⟨.setSelect .., worked⟩ => worked
  | _ => true

/-- The pins of the chip selects work in the trace `w`, every time that they are set. -/
def Working (w : Trace SpiBus) : Prop := ∀ x ∈ w, worked x = true

/-! ### What is carried out -/

/-- The exchanges of the bus carry out what a trace asks of the link, each request by a run of
`serveLink`. -/
inductive Carries : Trace Device → Trace SpiBus → Prop where
  | nil : Carries [] []
  | link {r : Link.Request} {x : Link.Reply r} {t : Trace Device} {w w' : Trace SpiBus}
      (run : (serveLink r).Run w x) (rest : Carries t w') : Carries (⟨.link r, x⟩ :: t) (w ++ w')
  | other {x : Exchange Device} {t : Trace Device} {w : Trace SpiBus}
      (other : ∀ r, x.request ≠ .link r) (rest : Carries t w) : Carries (x :: t) w

/-- To carry out `t ++ t'` is to carry out `t`, and then `t'`. -/
theorem Carries.append_inv {t t' : Trace Device} {w : Trace SpiBus} (h : Carries (t ++ t') w) :
    ∃ w₁ w₂, w = w₁ ++ w₂ ∧ Carries t w₁ ∧ Carries t' w₂ := by
  induction t generalizing w with
  | nil => exact ⟨[], w, rfl, .nil, h⟩
  | cons x t ih =>
    cases h with
    | link run rest =>
      obtain ⟨w₁, w₂, rfl, hfirst, hrest⟩ := ih rest
      exact ⟨_, w₂, (List.append_assoc ..).symm, .link run hfirst, hrest⟩
    | other other rest =>
      obtain ⟨w₁, w₂, rfl, hfirst, hrest⟩ := ih rest
      exact ⟨w₁, w₂, rfl, .other other hfirst, hrest⟩

/-! ### Tidiness -/

/-- Beginning with all chip selects high, at most one is low at any moment of `w`, and none is at
the end. -/
structure Tidy (w : Trace SpiBus) : Prop where
  exclusive : ∀ w₁, w₁ <+: w → (Lines.idle.after w₁).Exclusive
  idle : Lines.idle.after w = Lines.idle

theorem Tidy.nil : Tidy [] where
  exclusive w₁ h := by
    obtain rfl := List.prefix_nil.1 h
    exact fun a b ha => nomatch ha
  idle := rfl

theorem Tidy.append {w w' : Trace SpiBus} (h : Tidy w) (h' : Tidy w') : Tidy (w ++ w') where
  exclusive w₁ hw₁ := by
    -- up to the first part's end as in the first part, and from there on as in the second
    obtain ⟨rest, hrest⟩ := hw₁
    rcases List.append_eq_append_iff.1 hrest with ⟨w₂, rfl, -⟩ | ⟨w₂, rfl, hsecond⟩
    · exact h.exclusive w₁ (List.prefix_append w₁ w₂)
    · rw [Lines.after_append, h.idle]
      exact h'.exclusive w₂ ⟨rest, hsecond.symm⟩
  idle := by rw [Lines.after_append, h.idle, h'.idle]

/-- Any number of `Tidy` exchanges may follow one another. -/
theorem tidy_flatten {wires : List (Trace SpiBus)} (h : ∀ w ∈ wires, Tidy w) :
    Tidy wires.flatten := by
  induction wires with
  | nil => exact .nil
  | cons w wires ih =>
    obtain ⟨hfirst, hrest⟩ := List.forall_mem_cons.1 h
    exact hfirst.append (ih hrest)

/-- The exchange `x` lowers no chip select but that of `target`. -/
def Lowers (target : Link.Target) (x : Exchange SpiBus) : Prop :=
  ∀ t, x.request = .setSelect t false → t = target

/-- While no chip select but that of `target` is lowered, no other is low. -/
theorem exclusive_of_lowers {target : Link.Target} {w : Trace SpiBus}
    (h : ∀ x ∈ w, Lowers target x) : (Lines.idle.after w).Exclusive := by
  have honly : ∀ t, Lines.idle.after w t = false → t = target := by
    refine List.foldlRecOn (motive := fun lines : Lines => ∀ t, lines t = false → t = target)
      w Lines.drive (fun t ht => nomatch ht) fun lines hlines x hx t ht => ?_
    have hlowers := h x hx t
    unfold Lines.drive at ht
    split at ht
    · next t' high =>
      split at ht
      · next heq =>
        subst heq ht
        exact hlowers rfl
      · exact hlines t ht
    · exact hlines t ht
  intro a b ha hb
  exact (honly a ha).trans (honly b hb).symm

/-- Exchanges that lower the chip select of one `target` only, and raise it in the end, are tidy. -/
theorem tidy_of_lowers (target : Link.Target) {w : Trace SpiBus} (h : ∀ x ∈ w, Lowers target x)
    (hidle : Lines.idle.after w = Lines.idle) : Tidy w where
  exclusive _ hw₁ := exclusive_of_lowers fun x hx => h x (hw₁.subset hx)
  idle := hidle

/-! ### What the link asks for -/

/-- To `select` is to lower one chip select. -/
theorem run_select {target : Link.Target} {w : Trace SpiBus} {x : Unit}
    (h : (serveLink (.select target)).Run w x) :
    ∃ worked, w = [⟨.setSelect target false, worked⟩] := by
  obtain ⟨w₁, w₂, worked, rfl, hset, hend⟩ := Program.run_bind_iff.1 h
  obtain rfl := Program.run_request_iff.1 hset
  obtain ⟨rfl, -⟩ := Program.run_done_iff.1 hend
  exact ⟨worked, rfl⟩

/-- To `transfer` a byte is one exchange. -/
theorem run_transfer {byte : UInt8} {w : Trace SpiBus} {x : UInt8}
    (h : (serveLink (.transfer byte)).Run w x) : ∃ reply, w = [⟨.exchange byte, reply⟩] := by
  obtain ⟨w₁, w₂, reply, rfl, hexchange, hend⟩ := Program.run_bind_iff.1 h
  obtain rfl := Program.run_request_iff.1 hexchange
  obtain ⟨rfl, -⟩ := Program.run_done_iff.1 hend
  exact ⟨reply, rfl⟩

/-- To `deselect` is to raise every chip select. -/
theorem run_deselect {w : Trace SpiBus} {x : Unit} (h : (serveLink .deselect).Run w x) :
    ∃ flushed io fpga osd, w = [⟨.flush, flushed⟩, ⟨.setSelect .io true, io⟩,
      ⟨.setSelect .fpga true, fpga⟩, ⟨.setSelect .osd true, osd⟩] := by
  obtain ⟨w₁, w', flushed, rfl, hflush, hrest⟩ := Program.run_bind_iff.1 h
  obtain ⟨w₂, w', io, rfl, hio, hrest⟩ := Program.run_bind_iff.1 hrest
  obtain ⟨w₃, w', fpga, rfl, hfpga, hrest⟩ := Program.run_bind_iff.1 hrest
  obtain ⟨w₄, w', osd, rfl, hosd, hend⟩ := Program.run_bind_iff.1 hrest
  obtain rfl := Program.run_request_iff.1 hflush
  obtain rfl := Program.run_request_iff.1 hio
  obtain rfl := Program.run_request_iff.1 hfpga
  obtain rfl := Program.run_request_iff.1 hosd
  obtain ⟨rfl, -⟩ := Program.run_done_iff.1 hend
  exact ⟨flushed, io, fpga, osd, rfl⟩

namespace Carries

variable {w : Trace SpiBus}

theorem of_nil (h : Carries [] w) : w = [] := by
  cases h
  rfl

/-- One request `r` is carried out by itself. -/
theorem of_link {r : Link.Request} {x : Link.Reply r} {t : Trace Device}
    (h : Carries (⟨.link r, x⟩ :: t) w) :
    ∃ w₁ w₂, w = w₁ ++ w₂ ∧ (serveLink r).Run w₁ x ∧ Carries t w₂ := by
  cases h with
  | link run rest => exact ⟨_, _, rfl, run, rest⟩
  | other other => exact absurd rfl (other r)

/-- What is not asked of the link is not carried out on the bus (`Carries`). -/
theorem of_other {x : Exchange Device} (h : Carries [x] w) (hother : ∀ r, x.request ≠ .link r) :
    w = [] := by
  cases h with
  | link run rest => exact absurd rfl (hother _)
  | other other rest => exact rest.of_nil

/-- Bytes that are clocked move no chip select. -/
theorem of_clocks {bytes : List (UInt8 × UInt8)} (h : Carries (Device.clocks bytes) w) :
    ∀ x ∈ w, ∃ byte, x.request = .exchange byte := by
  induction bytes generalizing w with
  | nil =>
    obtain rfl := h.of_nil
    exact fun x hx => absurd hx List.not_mem_nil
  | cons b bytes ih =>
    obtain ⟨w₁, w₂, rfl, hrun, hrest⟩ := h.of_link
    obtain ⟨reply, rfl⟩ := run_transfer hrun
    exact List.forall_mem_cons.2 ⟨⟨b.1, rfl⟩, ih hrest⟩

end Carries

theorem lowers_of_exchange {target : Link.Target} {x : Exchange SpiBus} {byte : UInt8}
    (h : x.request = .exchange byte) : Lowers target x := by
  intro t ht
  rw [h] at ht
  cases ht

/-- The chip selects stay as they are while bytes are exchanged. -/
theorem after_of_exchanges {w : Trace SpiBus} (h : ∀ x ∈ w, ∃ byte, x.request = .exchange byte)
    (lines : Lines) : lines.after w = lines := by
  refine List.foldlRecOn (motive := fun l => l = lines) w Lines.drive rfl fun l hl x hx => ?_
  obtain ⟨byte, hbyte⟩ := h x hx
  obtain ⟨request, reply⟩ := x
  subst hbyte
  exact hl

/-- A `Deed` by itself is tidy. -/
theorem tidy_deed {d : Deed} {w : Trace SpiBus} (h : Carries d.trace w) (hworking : Working w) :
    Tidy w := by
  cases d with
  | frame target bytes =>
    obtain ⟨w₁, w', rfl, hselect, hrest⟩ := h.of_link
    obtain ⟨w₂, w', rfl, hclocks, hrest⟩ := hrest.append_inv
    obtain ⟨w₃, w₄, rfl, hdeselect, hend⟩ := hrest.of_link
    obtain ⟨worked, rfl⟩ := run_select hselect
    obtain ⟨flushed, io, fpga, osd, rfl⟩ := run_deselect hdeselect
    obtain rfl := hend.of_nil
    have hexchanges := hclocks.of_clocks
    obtain rfl : io = true := hworking ⟨.setSelect .io true, io⟩ (by simp)
    obtain rfl : fpga = true := hworking ⟨.setSelect .fpga true, fpga⟩ (by simp)
    obtain rfl : osd = true := hworking ⟨.setSelect .osd true, osd⟩ (by simp)
    have hselected : Lowers target ⟨.setSelect target false, worked⟩ := by
      intro t ht
      cases ht
      rfl
    have hflushed : ∀ reply, Lowers target ⟨.flush, reply⟩ := fun _ t ht => nomatch ht
    have hraised : ∀ t reply, Lowers target ⟨.setSelect t true, reply⟩ := fun _ _ t ht => nomatch ht
    have hlowers : ∀ x ∈ w₂, Lowers target x := fun x hx =>
      (hexchanges x hx).elim fun _ hbyte => lowers_of_exchange hbyte
    refine tidy_of_lowers target ?_ ?_
    · refine List.forall_mem_append.2 ⟨List.forall_mem_singleton.2 hselected,
        List.forall_mem_append.2 ⟨hlowers, ?_⟩⟩
      rw [List.append_nil, List.forall_mem_cons, List.forall_mem_cons, List.forall_mem_cons,
        List.forall_mem_singleton]
      exact ⟨hflushed _, hraised _ _, hraised _ _, hraised _ _⟩
    · -- whichever was lowered, all three are raised at the end
      rw [Lines.after_append, Lines.after_append, after_of_exchanges hexchanges]
      funext t
      cases t <;> rfl
  | clock sent back =>
    obtain ⟨w₁, w₂, rfl, hrun, hend⟩ := h.of_link
    obtain ⟨reply, rfl⟩ := run_transfer hrun
    obtain rfl := hend.of_nil
    refine tidy_of_lowers .io (fun x hx => ?_) rfl
    exact List.mem_singleton.1 hx ▸ lowers_of_exchange rfl
  | medium request reply => exact h.of_other (fun _ => nofun) ▸ .nil
  | file request reply => exact h.of_other (fun _ => nofun) ▸ .nil
  | host request reply => exact h.of_other (fun _ => nofun) ▸ .nil

/-- Whatever is done in whole frames, or by clocking a byte outside any, is `Tidy`. -/
theorem tidy_traces {ds : List Deed} {w : Trace SpiBus} (h : Carries (traces ds) w)
    (hworking : Working w) : Tidy w := by
  induction ds generalizing w with
  | nil => exact h.of_nil ▸ .nil
  | cons d ds ih =>
    rw [Device.traces_cons] at h
    obtain ⟨w₁, w₂, rfl, hfirst, hrest⟩ := h.append_inv
    obtain ⟨hw₁, hw₂⟩ := List.forall_mem_append.1 hworking
    exact (tidy_deed hfirst hw₁).append (ih hrest hw₂)

/-! ### A bus to look at -/

/-- The exchanges that carry out `t` on a bus on which nothing fails. -/
def wire (t : Trace Device) : Trace SpiBus :=
  t.flatMap fun x => match x with
    | ⟨.link (.select target), _⟩ => [⟨.setSelect target false, true⟩]
    | ⟨.link (.transfer byte), back⟩ => [⟨.exchange byte, some back⟩]
    | ⟨.link .deselect, _⟩ => [⟨.flush, true⟩, ⟨.setSelect .io true, true⟩,
        ⟨.setSelect .fpga true, true⟩, ⟨.setSelect .osd true, true⟩]
    | _ => []

/-- A run of a program that asks `r` and goes on with `k` at the reply `x`. -/
theorem run_ask {α : Type} {r : Request} {x : Reply r} {k : Reply r → Program SpiBus α}
    {w : Trace SpiBus} {a : α} (h : (k x).Run w a) : (ask r >>= k).Run (⟨r, x⟩ :: w) a :=
  Program.Run.bind (Program.run_request_iff.2 rfl) h

/-- Everything that is asked of the link can be carried out, by `wire`. -/
theorem carries_wire (t : Trace Device) : Carries t (wire t) := by
  induction t with
  | nil => exact .nil
  | cons x t ih =>
    obtain ⟨request, reply⟩ := x
    cases request with
    | link r =>
      refine .link ?_ ih
      cases r with
      | select target => exact run_ask (.done ())
      | deselect => exact run_ask (run_ask (run_ask (run_ask (.done ()))))
      | transfer byte => exact run_ask (.done reply)
    | _ => exact .other (fun _ => nofun) ih

theorem working_wire (t : Trace Device) : Working (wire t) := by
  intro x hx
  obtain ⟨⟨request, reply⟩, -, hmem⟩ := List.mem_flatMap.1 hx
  cases request with
  | link r =>
    cases r with
    | select target => exact List.mem_singleton.1 hmem ▸ rfl
    | transfer byte => exact List.mem_singleton.1 hmem ▸ rfl
    | deselect =>
      simp only [List.mem_cons, List.not_mem_nil, or_false] at hmem
      rcases hmem with rfl | rfl | rfl | rfl <;> rfl
  | _ => cases hmem

end IoController.SpiBus
