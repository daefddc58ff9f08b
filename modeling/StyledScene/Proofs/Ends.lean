/-!
# Work that ends

Work reads and writes a state, statement by statement. It may never end, and it may be refused half way:
what it has done up to then stays done. `Ends` says where work ends, with which answer and in which state,
and the lemmas here put work together from its statements.
-/

namespace StyledScene

variable {ε σ α β : Type}

/-- The work ends on `l` with the answer, and leaves `l'` behind. -/
def Ends (x : ExceptT ε (StateT σ Option) α) (l : σ) (answer : Except ε α) (l' : σ) : Prop :=
  x.run.run l = some (answer, l')

variable {l l' l'' : σ}

/-- Work has one end. -/
theorem Ends.unique {x : ExceptT ε (StateT σ Option) α} {a a' : Except ε α} (h : Ends x l a l')
    (h' : Ends x l a' l'') : a = a' ∧ l' = l'' :=
  Prod.mk.inj (Option.some.inj (h.symm.trans h'))

theorem ends_pure (a : α) : Ends (pure a : ExceptT ε (StateT σ Option) α) l (.ok a) l := rfl

theorem ends_throw (e : ε) : Ends (throw e : ExceptT ε (StateT σ Option) α) l (.error e) l := rfl

theorem ends_get : Ends (get : ExceptT ε (StateT σ Option) σ) l (.ok l) l := rfl

theorem ends_modify (f : σ → σ) :
    Ends (modify f : ExceptT ε (StateT σ Option) Unit) l (.ok ()) (f l) := rfl

theorem ends_set (l' : σ) : Ends (set l' : ExceptT ε (StateT σ Option) Unit) l (.ok ()) l' := rfl

theorem Ends.bind {x : ExceptT ε (StateT σ Option) α} {f : α → ExceptT ε (StateT σ Option) β} {a : α}
    {b : Except ε β} (hx : Ends x l (.ok a) l') (hf : Ends (f a) l' b l'') :
    Ends (x >>= f) l b l'' := by
  show (x.run.run l).bind _ = _
  rw [hx]
  exact hf

theorem Ends.bind_error {x : ExceptT ε (StateT σ Option) α}
    {f : α → ExceptT ε (StateT σ Option) β} {e : ε} (hx : Ends x l (.error e) l') :
    Ends (x >>= f) l (.error e) l' := by
  show (x.run.run l).bind _ = _
  rw [hx]
  rfl

theorem Ends.map {x : ExceptT ε (StateT σ Option) α} {a : Except ε α} (hx : Ends x l a l')
    (f : α → β) : Ends (f <$> x) l (a.map f) l' := by
  show (x.run.run l).bind _ = _
  rw [hx]
  cases a <;> rfl

/-- Work that only looks, after work that only looks. -/
theorem Ends.bind_answer {x : ExceptT ε (StateT σ Option) α} {f : α → ExceptT ε (StateT σ Option) β}
    {a : Except ε α} {b : α → Except ε β} (hx : Ends x l a l) (hf : ∀ v, Ends (f v) l (b v) l) :
    Ends (x >>= f) l (a >>= b) l := by
  cases a with
  | error e => exact hx.bind_error
  | ok v => exact hx.bind (hf v)

theorem Ends.mapM {f : α → ExceptT ε (StateT σ Option) β} {a : α → Except ε β}
    (h : ∀ v, Ends (f v) l (a v) l) (xs : List α) : Ends (xs.mapM f) l (xs.mapM a) l := by
  induction xs with
  | nil => exact ends_pure []
  | cons v xs ih =>
    rw [List.mapM_cons, List.mapM_cons]
    apply (h v).bind_answer
    intro c
    apply ih.bind_answer
    intro cs
    exact ends_pure (c :: cs)

end StyledScene
