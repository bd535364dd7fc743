import Mathlib.Tactic

/-!
# Values issued once

A value which nobody can guess and which is issued to one place is, from then
on, in one place at a time, until it is dropped or used up.  Agents hand such
values on between their places.  A value that is used up was held by nobody
else, so it is new to whoever has seen the used ones.
-/

namespace NotifyHub

/-- What each place of each agent holds, the values which have been used up
and those which have been issued. -/
structure IssuedOnce
    {Agent Place Value : Type*} (held : Agent → Place → Option Value)
    (used issued : Set Value) : Prop where
  held_issued : ∀ agent place value,
    held agent place = some value → value ∈ issued
  used_issued : used ⊆ issued
  unused : ∀ agent place value,
    held agent place = some value → value ∉ used
  unique : ∀ agent place other place' value,
    held agent place = some value → held other place' = some value →
      agent = other ∧ place = place'

namespace IssuedOnce

variable {Agent Place Value : Type*} [DecidableEq Agent]
  {held : Agent → Place → Option Value} {used used' issued issued' : Set Value}
  {agent : Agent} {own : Place → Option Value}

/-- An agent hands on, drops or uses up what it holds.  `source` says where
the value of a place has been before. -/
theorem handOn
    (honce : IssuedOnce held used issued) (source : Place → Place)
    (hown : ∀ place value,
      own place = some value → held agent (source place) = some value)
    (hsource : ∀ place place' value,
      own place = some value → own place' = some value →
        source place = source place' → place = place')
    (hused : ∀ value ∈ used', value ∈ used ∨
      (∃ place, held agent place = some value) ∧
        ∀ place, own place ≠ some value)
    (hissued : issued ⊆ issued') :
    IssuedOnce (Function.update held agent own) used' issued' := by
  refine ⟨?_, ?_, ?_, ?_⟩
  · intro any place value hheld
    by_cases heq : any = agent
    · subst heq
      rw [Function.update_self] at hheld
      exact hissued (honce.held_issued _ _ _ (hown place value hheld))
    · rw [Function.update_of_ne heq] at hheld
      exact hissued (honce.held_issued _ _ _ hheld)
  · intro value hvalue
    rcases hused value hvalue with hold | ⟨⟨place, hplace⟩, -⟩
    · exact hissued (honce.used_issued hold)
    · exact hissued (honce.held_issued _ _ _ hplace)
  · intro any place value hheld hvalue
    by_cases heq : any = agent
    · subst heq
      rw [Function.update_self] at hheld
      rcases hused value hvalue with hold | ⟨-, hgone⟩
      · exact honce.unused _ _ _ (hown place value hheld) hold
      · exact hgone place hheld
    · rw [Function.update_of_ne heq] at hheld
      rcases hused value hvalue with hold | ⟨⟨place', hplace⟩, -⟩
      · exact honce.unused _ _ _ hheld hold
      · exact heq (honce.unique _ _ _ _ _ hheld hplace).1
  · intro first place second place' value hfirst hsecond
    by_cases heq : first = agent
    · subst heq
      rw [Function.update_self] at hfirst
      by_cases hsame : second = first
      · subst hsame
        rw [Function.update_self] at hsecond
        have hplace := (honce.unique _ _ _ _ _ (hown place value hfirst)
          (hown place' value hsecond)).2
        exact ⟨rfl, hsource place place' value hfirst hsecond hplace⟩
      · rw [Function.update_of_ne hsame] at hsecond
        have hagent := (honce.unique _ _ _ _ _ (hown place value hfirst)
          hsecond).1
        exact absurd hagent.symm hsame
    · rw [Function.update_of_ne heq] at hfirst
      by_cases hsame : second = agent
      · subst hsame
        rw [Function.update_self] at hsecond
        have hagent := (honce.unique _ _ _ _ _ hfirst
          (hown place' value hsecond)).1
        exact absurd hagent heq
      · rw [Function.update_of_ne hsame] at hsecond
        exact honce.unique _ _ _ _ _ hfirst hsecond

/-- An agent keeps some of what it holds where it is. -/
theorem keep
    (honce : IssuedOnce held used issued)
    (hown : ∀ place value,
      own place = some value → held agent place = some value)
    (hused : used' ⊆ used) :
    IssuedOnce (Function.update held agent own) used' issued :=
  honce.handOn id hown
    (fun _ _ _ _ _ hsame => hsame)
    (fun _ hvalue => .inl (hused hvalue)) (Set.Subset.refl _)

variable [DecidableEq Place] {place : Place} {value : Value}

theorem issue
    (honce : IssuedOnce held used issued) (hfresh : value ∉ issued)
    (hown : own = Function.update (held agent) place (some value))
    (hused : used' ⊆ used) :
    IssuedOnce (Function.update held agent own) used'
      (insert value issued) := by
  have hnew : ∀ any place', held any place' ≠ some value := fun _ _ hheld =>
    hfresh (honce.held_issued _ _ _ hheld)
  have hcases : ∀ any place' any_value,
      Function.update held agent own any place' = some any_value →
        any = agent ∧ place' = place ∧ any_value = value ∨
          held any place' = some any_value := by
    intro any place' any_value hheld
    by_cases heq : any = agent
    · subst heq
      rw [Function.update_self, hown] at hheld
      by_cases hplace : place' = place
      · subst hplace
        rw [Function.update_self] at hheld
        exact .inl ⟨rfl, rfl, (Option.some.inj hheld).symm⟩
      · rw [Function.update_of_ne hplace] at hheld
        exact .inr hheld
    · rw [Function.update_of_ne heq] at hheld
      exact .inr hheld
  refine ⟨?_, ?_, ?_, ?_⟩
  · intro any place' any_value hheld
    rcases hcases any place' any_value hheld with ⟨-, -, rfl⟩ | hold
    · exact Set.mem_insert _ _
    · exact Set.mem_insert_of_mem _ (honce.held_issued _ _ _ hold)
  · exact fun _ hvalue =>
      Set.mem_insert_of_mem _ (honce.used_issued (hused hvalue))
  · intro any place' any_value hheld hvalue
    rcases hcases any place' any_value hheld with ⟨-, -, rfl⟩ | hold
    · exact hfresh (honce.used_issued (hused hvalue))
    · exact honce.unused _ _ _ hold (hused hvalue)
  · intro first place₁ second place₂ any_value hfirst hsecond
    rcases hcases _ _ _ hfirst with ⟨rfl, rfl, rfl⟩ | hfirst'
    · rcases hcases _ _ _ hsecond with ⟨rfl, rfl, -⟩ | hsecond'
      · exact ⟨rfl, rfl⟩
      · exact absurd hsecond' (hnew _ _)
    · rcases hcases _ _ _ hsecond with ⟨rfl, rfl, rfl⟩ | hsecond'
      · exact absurd hfirst' (hnew _ _)
      · exact honce.unique _ _ _ _ _ hfirst' hsecond'

end IssuedOnce

end NotifyHub
