import ChatClient.Proofs.Json.Reading
/-!
# Outcome — whether a text is taken, and what is right about what is made of it

Which fault a text is refused for may depend on what comes first in it.  What does not is an `Outcome`: whether there is a
value, what is right about it, and that a value too long is refused as a mismatch where nothing else is wrong.

The outcome of an object is put together from those of its members, in whatever order they come (`Record.Settles.member`).
-/
namespace ChatClient
namespace Json

/-- A value in range that fits is taken, one in range that does not fit is a mismatch, and another one is refused. -/
structure Outcome {α : Type} (inRange fits : Prop) (right : α → Prop) (o : Except Fault α) : Prop where
  taken : inRange → fits → ∃ x, o = .ok x ∧ right x
  long : inRange → ¬ fits → o = .error .mismatch
  wide : ¬ inRange → ∃ fault, o = .error fault

variable {α β σ : Type}

namespace Outcome

variable {R F R' F' : Prop} {right : α → Prop} {o : Except Fault α}

theorem ok {x : α} (h : right x) : Outcome True True right (.ok x) :=
  ⟨fun _ _ => ⟨x, rfl, h⟩, fun _ hf => absurd trivial hf, fun hr => absurd trivial hr⟩

theorem refused {fault : Fault} (h : ¬ R) : Outcome R F right (.error fault) :=
  ⟨fun hr => absurd hr h, fun hr => absurd hr h, fun _ => ⟨fault, rfl⟩⟩

/-- What is taken is in range, fits and is right. -/
theorem of_ok {x : α} (h : Outcome R F right (.ok x)) : R ∧ F ∧ right x := by
  by_cases hr : R
  · by_cases hf : F
    · obtain ⟨y, hy, hright⟩ := h.taken hr hf
      cases hy
      exact ⟨hr, hf, hright⟩
    · cases h.long hr hf
  · obtain ⟨fault, hfault⟩ := h.wide hr
    cases hfault

/-- What a part is refused for, the whole is refused for. -/
theorem of_error {fault : Fault} (h : Outcome R F right (.error fault)) (R' F' : Prop) (right' : β → Prop) :
    Outcome (R ∧ R') (F ∧ F') right' (.error fault) := by
  have hnot : R → ¬ F := fun hr hf => by
    obtain ⟨x, hx, -⟩ := h.taken hr hf
    cases hx
  refine ⟨fun hr hf => absurd hf.1 (hnot hr.1), fun hr _ => ?_, fun _ => ⟨fault, rfl⟩⟩
  cases h.long hr.1 (hnot hr.1)
  rfl

theorem congr (h : Outcome R F right o) (hr : R' ↔ R) (hf : F' ↔ F) : Outcome R' F' right o := by
  obtain rfl := propext hr
  obtain rfl := propext hf
  exact h

theorem bind {right' : β → Prop} (h : Outcome R F right o) {f : α → Except Fault β}
    (hf : ∀ x, right x → Outcome R' F' right' (f x)) : Outcome (R ∧ R') (F ∧ F') right' (o >>= f) := by
  cases o with
  | ok x =>
    obtain ⟨hr, hfit, hx⟩ := h.of_ok
    exact (hf x hx).congr (and_iff_right hr) (and_iff_right hfit)
  | error fault => exact h.of_error R' F' right'

theorem map {right' : β → Prop} (h : Outcome R F right o) {f : α → β} (hf : ∀ x, right x → right' (f x)) :
    Outcome R F right' (f <$> o) := by
  have hbind := h.bind (f := fun x => .ok (f x)) fun x hx => ok (hf x hx)
  rw [and_true, and_true] at hbind
  cases o <;> exact hbind

end Outcome

/-! ## Texts that have an outcome -/

/-- What the reader makes of a text has this outcome. -/
def Settles (r : Reader α) (inRange fits : Prop) (right : α → Prop) (t : List Char) : Prop :=
  ∃ o, Gives r o t ∧ Outcome inRange fits right o

/-- What an object's members make of the record has this outcome. -/
def Record.Settles (shape : Record σ α) (inRange fits : Prop) (right : σ → Prop) (x : σ)
    (members : List (String × List Char)) : Prop :=
  ∃ o, Yields shape x members o ∧ Outcome inRange fits right o

variable {R F R' F' : Prop}

theorem Settles.map {r : Reader α} {right : α → Prop} {t : List Char} (h : Settles r R F right t) (f : α → β) :
    Settles (do return f (← r)) R F (fun y => ∃ x, right x ∧ y = f x) t := by
  obtain ⟨o, hgives, ho⟩ := h
  exact ⟨f <$> o, hgives.map f, ho.map fun x hx => ⟨x, hx, rfl⟩⟩

theorem Settles.congr {r : Reader α} {right : α → Prop} {t : List Char} (h : Settles r R F right t) (hr : R' ↔ R)
    (hf : F' ↔ F) : Settles r R' F' right t := by
  obtain ⟨o, hgives, ho⟩ := h
  exact ⟨o, hgives, ho.congr hr hf⟩

theorem Reads.settles {r : Reader α} {x : α} {t : List Char} (h : Reads r x t) :
    Settles r True True (fun y => y = x) t :=
  ⟨.ok x, h.gives, .ok rfl⟩

/-- **An object is in range and fits when its members do and what they make of the record does.** -/
theorem Record.Settles.read {shape : Record σ α} {x : σ} {mid : σ → Prop} {right : α → Prop}
    {members : List (String × List Char)} {t : List Char} (h : shape.Settles R F mid x members) (ht : ObjectText members t)
    (hfinish : ∀ y, mid y → Outcome R' F' right (shape.finish y)) :
    Json.Settles (shape.read x) (R ∧ R') (F ∧ F') right t := by
  obtain ⟨o, hyields, ho⟩ := h
  exact ⟨o >>= shape.finish, hyields.gives ht, ho.bind hfinish⟩

namespace Record
namespace Settles

variable {shape : Record σ α} {right : σ → Prop} {x : σ} {name : String} {v : List Char}
  {members : List (String × List Char)}

theorem imp {right' : σ → Prop} (h : shape.Settles R F right x members) (hright : ∀ y, right y → right' y) :
    shape.Settles R F right' x members := by
  obtain ⟨o, hyields, ho⟩ := h
  refine ⟨o, hyields, fun hr hf => ?_, ho.long, ho.wide⟩
  obtain ⟨y, hy, hgood⟩ := ho.taken hr hf
  exact ⟨y, hy, hright y hgood⟩

theorem nil (h : right x) (hr : R) (hf : F) : shape.Settles R F right x [] :=
  ⟨.ok x, .nil, (Outcome.ok h).congr (iff_true_intro hr) (iff_true_intro hf)⟩

/-- **A member is in range and fits with the members behind it**, which go on from what it makes of the record. -/
theorem member {m : Member σ} {mid : σ → Prop} {R₁ F₁ : Prop} (R₂ F₂ : Prop)
    (hm : shape.members.find? (·.name == name) = some m) (hn : name ∉ members.map (·.1))
    (hv : Json.Settles (m.read x) R₁ F₁ mid v) (hr : R ↔ R₁ ∧ R₂) (hf : F ↔ F₁ ∧ F₂)
    (hrest : ∀ y, mid y → shape.Settles R₂ F₂ right y members) : shape.Settles R F right x ((name, v) :: members) := by
  obtain ⟨o, hgives, ho⟩ := hv
  cases o with
  | ok y =>
    obtain ⟨hr₁, hf₁, hmid⟩ := ho.of_ok
    obtain ⟨o, hyields, ho⟩ := hrest y hmid
    exact ⟨o, .known hm hn hgives hyields, ho.congr (hr.trans (and_iff_right hr₁)) (hf.trans (and_iff_right hf₁))⟩
  | error fault => exact ⟨.error fault, .refused hm hgives, (ho.of_error R₂ F₂ right).congr hr hf⟩

theorem stranger (hm : shape.members.find? (·.name == name) = none) (hv : Overlooks shape.stranger v)
    (hrest : shape.Settles R F right x members) : shape.Settles R F right x ((name, v) :: members) := by
  obtain ⟨o, hyields, ho⟩ := hrest
  exact ⟨o, .stranger hm hv hyields, ho⟩

end Settles
end Record
end Json
end ChatClient
