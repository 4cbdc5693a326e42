/-
What a reader gives.

A property holds of whatever a reader gives (`Gives`) if it holds of what the readers that
it is made of give.  There is one lemma for each way to make a reader.
-/
import TheoryScript.Toml.Scan

namespace TheoryScript.Toml.Scan

variable {α β : Type} {P : α → Prop} {Q : β → Prop} {p q : Scan α} {f : α → Scan β}

/-- Whatever a reader gives has a property. -/
def Gives (P : α → Prop) (p : Scan α) : Prop :=
  ∀ cs a rest, p cs = some (a, rest) → P a

/-- What has the property always is given by every reader. -/
theorem gives_of_forall (h : ∀ a, P a) : Gives P p :=
  fun _ a _ _ => h a

theorem gives_failure : Gives P (failure : Scan α) := by
  intro cs a rest hrun
  cases hrun

theorem gives_pure {a : α} (h : P a) : Gives P (pure a : Scan α) := by
  intro cs found rest hrun
  cases hrun
  exact h

theorem gives_bind (hp : Gives P p) (hf : ∀ a, P a → Gives Q (f a)) : Gives Q (p >>= f) := by
  intro cs b rest hrun
  obtain ⟨⟨a, left⟩, hfirst, hrest⟩ := Option.bind_eq_some_iff.mp hrun
  exact hf a (hp cs a left hfirst) left b rest hrest

/-- Where it does not matter what comes first, only what follows is looked at. -/
theorem gives_after (hf : ∀ a, Gives Q (f a)) : Gives Q (p >>= f) :=
  gives_bind (gives_of_forall fun _ => trivial) fun a _ => hf a

theorem gives_seqLeft {q : Scan β} (hp : Gives P p) : Gives P (p <* q) :=
  gives_bind (f := fun a => q >>= fun _ => pure a) hp fun _ ha => gives_after fun _ => gives_pure ha

theorem gives_seqRight {q : Scan β} (hq : Gives Q q) : Gives Q (p *> q) :=
  gives_after (f := fun _ => q) fun _ => hq

theorem gives_map {g : α → β} (hp : Gives (fun a => Q (g a)) p) : Gives Q (g <$> p) := by
  intro cs b rest hrun
  obtain ⟨⟨a, left⟩, hfirst, hrest⟩ := Option.bind_eq_some_iff.mp hrun
  cases hrest
  exact hp cs a _ hfirst

theorem gives_orElse (hp : Gives P p) (hq : Gives P q) : Gives P (p <|> q) := by
  intro cs a rest hrun
  cases hfirst : p cs with
  | some found =>
      have hsame : (p <|> q) cs = p cs := by
        show (p cs <|> q cs) = p cs
        rw [hfirst]
        rfl
      exact hp cs a rest (hsame ▸ hrun)
  | none =>
      have hsame : (p <|> q) cs = q cs := by
        show (p cs <|> q cs) = q cs
        rw [hfirst]
        rfl
      exact hq cs a rest (hsame ▸ hrun)

theorem gives_lift {x : Option α} : Gives (fun a => x = some a) (StateT.lift x : Scan α) := by
  intro cs a rest hrun
  obtain ⟨found, hfound, h⟩ := Option.bind_eq_some_iff.mp hrun
  cases h
  exact hfound

theorem gives_maybe (hp : Gives P p) : Gives (fun found => ∀ a ∈ found, P a) (maybe p) := by
  refine gives_orElse (gives_map ?_) (gives_pure ?_)
  · intro cs a rest hrun found hfound
    cases hfound
    exact hp cs a rest hrun
  · intro a ha
    cases ha

theorem forall_mem_repeated (hp : Gives P p) (cs : List Char) :
    ∀ a ∈ (repeated p cs).1, P a := by
  fun_induction repeated p cs with
  | case1 cs hfirst => simp
  | case2 cs a rest hfirst hless more left hmore ih =>
      rw [hmore] at ih
      exact List.forall_mem_cons.mpr ⟨hp cs a rest hfirst, ih⟩
  | case3 cs a rest hfirst hless => simp

theorem gives_many (hp : Gives P p) : Gives (fun found => ∀ a ∈ found, P a) (many p) := by
  intro cs found rest hrun
  have hfound : (repeated p cs).1 = found := congrArg Prod.fst (Option.some.inj hrun)
  rw [← hfound]
  exact forall_mem_repeated hp cs

theorem gives_sepBy1 {separator : Scan Unit} (hp : Gives P p) :
    Gives (fun found => ∀ a ∈ found, P a) (sepBy1 p separator) := by
  refine gives_bind hp fun first hfirst => gives_bind (gives_many (P := P) ?_) fun more hmore => ?_
  · exact gives_after fun _ => hp
  · exact gives_pure (List.forall_mem_cons.mpr ⟨hfirst, hmore⟩)

end TheoryScript.Toml.Scan
