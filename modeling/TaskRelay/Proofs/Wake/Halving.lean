import Mathlib
import TaskRelay.Proofs.Wake.Nesting
import TaskRelay.Wake.Observer

/-!
# The halving observer

A callback that notifies half its address while that is not zero nests as deep as its address has
binary digits, and then returns from all of these calls. Main statement: `halving_notify`.
-/

namespace TaskRelay

/-! ## Turns -/

namespace Turn

variable {t u v : Turn}

theorem run_done {b : Bool} (h : t.progress = .done b) (fuel : Nat) : t.run fuel = t := by
  cases fuel with
  | zero => rfl
  | succ fuel => simp only [run, h]

theorem run_running {i : Invocation} (h : t.progress = .running i) (fuel : Nat) :
    t.run (fuel + 1) =
      Turn.run { t.registry.step i with signs := t.signs ++ (t.registry.step i).signs } fuel := by
  simp only [run, h]

theorem run_add (t : Turn) (m n : Nat) : t.run (m + n) = (t.run m).run n := by
  induction m generalizing t with
  | zero => rw [Nat.zero_add]; rfl
  | succ m ih =>
    rw [Nat.add_right_comm]
    cases h : t.progress with
    | done b => rw [run_done h, run_done h, run_done h]
    | running i => rw [run_running h, run_running h, ih]

/-- A notification comes from one turn to another. -/
def Comes (t u : Turn) : Prop := ∃ fuel, t.run fuel = u

theorem Comes.refl (t : Turn) : t.Comes t := ⟨0, rfl⟩

theorem Comes.trans (h : t.Comes u) (h' : u.Comes v) : t.Comes v := by
  obtain ⟨m, rfl⟩ := h
  obtain ⟨n, rfl⟩ := h'
  exact ⟨m + n, run_add t m n⟩

section Steps

variable (r : Registry) (l : List Sign) (rest : List (Bool → Reaction))

theorem comes_look (next : Nat → Reaction) :
    Comes ⟨r, l, .running ⟨.delivered next, rest⟩⟩
      ⟨r, l, .running ⟨next r.delivered, rest⟩⟩ :=
  ⟨1, by simp only [run, Registry.step, List.append_nil]⟩

theorem comes_note (text : String) (next : Reaction) :
    Comes ⟨r, l, .running ⟨.note text next, rest⟩⟩
      ⟨r, l ++ [.note text], .running ⟨next, rest⟩⟩ := ⟨1, rfl⟩

theorem comes_call {r : Registry} {c : Callback} (h : r.callback = some c) (w : WakePointer)
    (next : Bool → Reaction) :
    Comes ⟨r, l, .running ⟨.notify w next, rest⟩⟩
      ⟨r, l ++ [.called w], .running ⟨c w, next :: rest⟩⟩ :=
  ⟨1, by simp only [run, Registry.step, h]⟩

theorem comes_back (next : Bool → Reaction) :
    Comes ⟨r, l, .running ⟨.finish, next :: rest⟩⟩
      ⟨{ r with delivered := r.delivered + 1 }, l ++ [.returned], .running ⟨next true, rest⟩⟩ :=
  ⟨1, rfl⟩

theorem comes_over :
    Comes ⟨r, l, .running ⟨.finish, []⟩⟩
      ⟨{ r with delivered := r.delivered + 1 }, l ++ [.returned], .done true⟩ := ⟨1, rfl⟩

end Steps

end Turn

/-! ## Halves -/

/-- An address and its halves down to one. -/
def halves (a : Nat) : List Nat := (List.range (a.log2 + 1)).map fun i => a / 2 ^ i

theorem halves_one : halves 1 = [1] := rfl

theorem halves_of_two_le {a : Nat} (h : 2 ≤ a) : halves a = a :: halves (a / 2) := by
  have hlog : a.log2 = (a / 2).log2 + 1 := by rw [Nat.log2_def, if_pos h]
  rw [halves, halves, hlog, List.range_succ_eq_map, List.map_cons, List.map_map, Nat.pow_zero,
    Nat.div_one]
  refine congrArg (a :: ·) (List.map_congr_left fun i _ => ?_)
  rw [Function.comp_apply, Nat.pow_succ, Nat.mul_comm, Nat.div_div_eq_div_mul]

namespace WakePointer

theorem half?_of_lt {w : WakePointer} (h : w.address.toNat < 2) : w.half? = none := by
  have : w.address / 2 = 0 := UInt64.toNat_inj.mp <| by
    rw [UInt64.toNat_div]
    exact Nat.div_eq_of_lt h
  simp [half?, ofAddress?, this]

theorem exists_half {w : WakePointer} (h : 2 ≤ w.address.toNat) :
    ∃ v, w.half? = some v ∧ v.address.toNat = w.address.toNat / 2 := by
  have hdiv : (w.address / 2).toNat = w.address.toNat / 2 := UInt64.toNat_div _ _
  have hne : w.address / 2 ≠ 0 := by
    intro h0
    rw [h0] at hdiv
    have : (0 : UInt64).toNat = 0 := rfl
    omega
  exact ⟨⟨w.address / 2, hne⟩, by simp [half?, ofAddress?, hne], hdiv⟩

theorem address_pos (w : WakePointer) : 0 < w.address.toNat :=
  Nat.pos_of_ne_zero fun h => w.ne_zero (UInt64.toNat_inj.mp h)

end WakePointer

/-! ## Down and back -/

/-- What the halving observer shows when called at this count of deliveries. -/
def halvingSigns (count : Nat) (w : WakePointer) : List Sign :=
  [.called w, .note (Observer.halving.label ++ w.text ++ Observer.countText count)]

/-- What the halving observer does once it has left its note. -/
def halvingRest (w : WakePointer) : Reaction :=
  match w.half? with
  | some half => .notify half fun _ => .finish
  | none => .finish

variable {r : Registry}

theorem halving_begins (r : Registry) (w : WakePointer) (l : List Sign)
    (rest : List (Bool → Reaction)) :
    Turn.Comes ⟨r, l ++ [.called w], .running ⟨Observer.halving.callback w, rest⟩⟩
      ⟨r, l ++ halvingSigns r.delivered w, .running ⟨halvingRest w, rest⟩⟩ := by
  let entry := fun n => Observer.halving.label ++ w.text ++ Observer.countText n
  have hlook := Turn.comes_look r (l ++ [.called w]) rest fun n => .note (entry n) (halvingRest w)
  have hnote := Turn.comes_note r (l ++ [.called w]) rest (entry r.delivered) (halvingRest w)
  rw [List.append_assoc] at hnote
  exact hlook.trans hnote

/-- As many callbacks as the address has halves are called, each within the one before. -/
theorem halving_descends (h : r.callback = some Observer.halving.callback) (w : WakePointer)
    (l : List Sign) (rest : List (Bool → Reaction)) :
    ∃ v vs, (v :: vs).map (fun x : WakePointer => x.address.toNat) = halves w.address.toNat ∧
      Turn.Comes ⟨r, l ++ [.called w], .running ⟨Observer.halving.callback w, rest⟩⟩
        ⟨r, l ++ (v :: vs).flatMap (halvingSigns r.delivered),
          .running ⟨.finish, List.replicate vs.length (fun _ => .finish) ++ rest⟩⟩ := by
  induction ha : w.address.toNat using Nat.strong_induction_on generalizing w l rest with
  | _ a ih =>
  have hpos := w.address_pos
  have hbegin := halving_begins r w l rest
  rcases Nat.lt_or_ge a 2 with hlt | hge
  · obtain rfl : a = 1 := by omega
    refine ⟨w, [], by rw [List.map_singleton, ha, halves_one], ?_⟩
    rw [halvingRest, WakePointer.half?_of_lt (ha ▸ hlt)] at hbegin
    rw [List.flatMap_singleton]
    exact hbegin
  · obtain ⟨half, hhalf, haddress⟩ := WakePointer.exists_half (ha ▸ hge)
    rw [halvingRest, hhalf] at hbegin
    rw [ha] at haddress
    obtain ⟨v, vs, hvs, hdown⟩ := ih (a / 2) (by omega) half (l ++ halvingSigns r.delivered w)
      ((fun _ => .finish) :: rest) haddress
    refine ⟨w, v :: vs, by rw [List.map_cons, ha, hvs, halves_of_two_le hge], ?_⟩
    have hcall := hbegin.trans (Turn.comes_call _ rest h half _)
    rw [List.flatMap_cons, ← List.append_assoc, List.length_cons, List.replicate_succ',
      ← List.append_cons]
    exact hcall.trans hdown

/-- Each of them returns, the innermost first. -/
theorem finishing_returns (r : Registry) (l : List Sign) (m : Nat) :
    Turn.Comes ⟨r, l, .running ⟨.finish, List.replicate m fun _ => .finish⟩⟩
      ⟨{ r with delivered := r.delivered + (m + 1) }, l ++ List.replicate (m + 1) .returned,
        .done true⟩ := by
  induction m generalizing r l with
  | zero => exact Turn.comes_over r l
  | succ m ih =>
    have hback := Turn.comes_back r l (List.replicate m fun _ => .finish) fun _ => .finish
    have hall := hback.trans (ih _ _)
    rw [List.append_assoc, List.singleton_append, ← List.replicate_succ, Nat.add_assoc,
      Nat.add_comm 1] at hall
    exact hall

/--
A notification of the halving observer comes to its end. It has called the observer with the address
and all its halves, in this order, each time at the same count of deliveries, and all these calls
have returned and are counted.
-/
theorem halving_notify (h : r.callback = some Observer.halving.callback) (w : WakePointer) :
    ∃ ws : List WakePointer, ws.map (fun v => v.address.toNat) = halves w.address.toNat ∧
      (r.notify w).Comes
        ⟨{ r with delivered := r.delivered + ws.length },
          ws.flatMap (halvingSigns r.delivered) ++ List.replicate ws.length .returned,
          .done true⟩ := by
  obtain ⟨v, vs, hvs, hdown⟩ := halving_descends h w [] []
  refine ⟨v :: vs, hvs, ?_⟩
  rw [Registry.notify_of_some h]
  rw [List.append_nil] at hdown
  exact hdown.trans (finishing_returns r _ vs.length)

end TaskRelay
