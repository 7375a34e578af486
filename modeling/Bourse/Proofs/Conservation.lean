import Mathlib
import Bourse.Proofs.AllOrNothing
import Bourse.Proofs.Sweep
import Bourse.Proofs.Termination

/-!
# The matched quantity is conserved through a cascade

A market order takes its size from one level of the opposite limit ladder.  When it drains
that level, the stops it releases run one after another as market orders of their own, and
with every stop on its own side each of them trades against the same ladder.  Each execution
splits its size between makers taken whole, which are logged, and at most one maker left in
the level with a smaller size.  This file keeps the account of that ladder over a whole call.

* `Takes`: what one execution does to the orders of the ladder it trades against: a run of
  makers leaves it and the maker after them is cut by some amount and stays;
  `Takes.sizeSum` is the ladder's loss;
* `Trade`, `Trade.Done`, `execute_done`: every execution on a well-formed book is a trade: the
  makers it takes and the cut add up to its size, and the history gains the makers and then
  the order, with its own size;
* `LoopTrace`, `MarketTrace`: the stop loop and the whole call as the list of executions they
  perform, each with the book it meets; `market_marketTrace` says every call that trades has
  one, and `MarketTrace.unique` that it has only one;
* `Feeding`, `LoopStep.feeding`: along the loop every state is in the frame of the book the
  call met, well formed, and every stop of the taker's side, resting or pending, rested there
  when the call began;
* `LoopTrace.trades`, `MarketTrace.trades`: the ladder loses exactly the sizes of the orders
  that traded, and the history gains exactly their logs;
* `market_conserves_matched_size`: all of it for every call on a well-formed book with every
  stop on its own side.
-/

namespace Bourse

/-- `Takes L L' taken cut`: an order that trades against a ladder whose orders are `L`, in
ascending price and oldest first within a price, takes the run of makers `taken` whole and
takes `cut` off the maker right after them, which stays where it was (`cut = 0` when no maker
is cut); the ladder's orders become `L'`. -/
def Takes (L L' taken : List Order) (cut : Nat) : Prop :=
  ∃ before rest after, L = before ++ taken ++ rest ++ after ∧
    ((cut = 0 ∧ L' = before ++ rest ++ after) ∨
      ∃ x rest', rest = x :: rest' ∧ 0 < cut ∧ cut < x.size.toNat ∧
        L' = before ++ { x with size := x.size - UInt64.ofNat cut } :: rest' ++ after)

/-- **What a take removes from the ladder**: the makers taken whole and the cut. -/
theorem Takes.sizeSum {L L' taken : List Order} {cut : Nat} (h : Takes L L' taken cut) :
    Level.sizeSum L = Level.sizeSum L' + Level.sizeSum taken + cut := by
  obtain ⟨before, rest, after, rfl, ⟨rfl, rfl⟩ | ⟨x, rest', rfl, hpos, hlt, rfl⟩⟩ := h
  · simp only [Level.sizeSum_append]
    omega
  · -- the cut maker keeps `x.size - cut`, a subtraction without wrap
    have hcut : (UInt64.ofNat cut).toNat = cut := by
      rw [UInt64.toNat_ofNat', Nat.mod_eq_of_lt (Nat.lt_trans hlt x.size.toNat_lt)]
    have hle : UInt64.ofNat cut ≤ x.size := UInt64.le_iff_toNat_le.2 (by omega)
    simp only [Level.sizeSum_append, Level.sizeSum_cons, UInt64.toNat_sub_of_le _ _ hle, hcut]
    omega

/-- One execution of a call, as the matched quantity sees it: the book it met, the order it
ran (with the size it had when it ran), the price it traded at, the makers it took whole (as
they rested) and the size it took off the maker it left partly filled. -/
structure Trade where
  book : Book
  order : Order
  price : UInt64
  taken : List Order
  cut : Nat

namespace Trade

/-- What a trade appends to the history: the makers taken whole, stamped, and then the order
itself, with its own size, priced at the level and stamped. -/
def log (clock : UInt64) (t : Trade) : List Order :=
  t.taken.map (fun x => { x with timestamp := stampOf clock }) ++
    [{ t.order with price := t.price, timestamp := stampOf clock }]

/-- `t.Done clock c'`: running `t.order` as a market order on `t.book` trades and leaves `c'`,
and `t` records it: the order's size is the makers it took whole and the cut; on the ladder it
trades against they are taken as `Takes` says; the history gains `t.log`. -/
structure Done (clock : UInt64) (t : Trade) (c' : Book) : Prop where
  executes : ∃ drained fs, t.book.execute t.order clock = some (drained, c', fs)
  takes : Takes (t.book.limitSide t.order.side.opposite).orders
    (c'.limitSide t.order.side.opposite).orders t.taken t.cut
  size_eq : t.order.size.toNat = Level.sizeSum t.taken + t.cut
  logged : c'.history = t.book.history ++ t.log clock

/-- A trade takes its order's size from the ladder it trades against. -/
theorem Done.sizeSum {clock : UInt64} {t : Trade} {c' : Book} (h : t.Done clock c') :
    Level.sizeSum (t.book.limitSide t.order.side.opposite).orders =
      Level.sizeSum (c'.limitSide t.order.side.opposite).orders + t.order.size.toNat := by
  rw [h.takes.sizeSum, h.size_eq, Nat.add_assoc]

end Trade

namespace Book

/-- **Every execution on a well-formed book is a trade.**  It takes the longest run of makers
of the best level that fits and cuts the next maker by what it still needs. -/
theorem execute_done {c : Book} (hwf : c.WF) {o : Order} {clock : UInt64} {drained : Bool}
    {c' : Book} {fs : List Fill} (hx : c.execute o clock = some (drained, c', fs)) :
    ∃ t : Trade, t.book = c ∧ t.order = o ∧ t.Done clock c' := by
  obtain ⟨P, l, hbest, hl, -, hside, hhist⟩ := execute_spec hx
  have hld := hwf.limitSide o.side.opposite
  have hmem := hld.level?_eq_some_iff.1 hl
  have hlwf : l.WF P := hld.level_wf _ hmem
  -- the level covers the order, or the execution would have failed
  have hcover : o.size.toNat ≤ Level.sizeSum l.queue := by
    obtain ⟨P', b₁, makers, hm, -, -⟩ := execute_eq_some hx
    obtain ⟨l', hbest', hl', hcov, -⟩ := matchBest_eq_some hm
    obtain rfl : P' = P := Option.some.inj (hbest'.symm.trans hbest)
    obtain rfl : l' = l := Option.some.inj (hl'.symm.trans hl)
    rw [← hlwf.total_eq]
    exact hcov
  obtain ⟨k, ⟨-, hfits, -⟩, ⟨hexact, hpart⟩, htaken, -⟩ := Level.consume_fill hlwf.sized hcover
  obtain ⟨before, after, h₁, h₂⟩ := orders_setLevel_afterFill hld hmem o.size
  refine ⟨⟨c, o, P, l.queue.take k, o.size.toNat - Level.sizeSum (l.queue.take k)⟩, rfl, rfl,
    ⟨⟨drained, fs, hx⟩, ⟨before, l.queue.drop k, after, ?_, ?_⟩, by dsimp only; omega, ?_⟩⟩
  · rw [h₁, ← List.take_append_drop k l.queue, List.append_assoc before]
    simp
  · rw [hside, h₂]
    by_cases hfull : o.size.toNat ≤ Level.sizeSum (l.queue.take k)
    · -- the makers taken whole fill the order: nothing is cut
      exact Or.inl ⟨by dsimp only; omega, by rw [hexact hfull]⟩
    · obtain ⟨x, rest, hdrop, hlt, hleft⟩ := hpart (by omega)
      exact Or.inr ⟨x, rest, hdrop, by dsimp only; omega, by dsimp only; omega, by rw [hleft]⟩
  · rw [hhist, htaken]
    rfl

/-! ## The executions of a call -/

variable (clock : UInt64)

/-- The turn the stop loop gives at a state: the next stop of the top group, with the book it
meets; none when the top group is empty or nothing is pending. -/
def turnAt : Book × List (List Order) → List (Book × Order)
  | (b, (stop :: _) :: _) => [(b, stop)]
  | _ => []

/-- `LoopTrace clock st turns st'`: the stop loop goes from `st` to `st'`, giving its turns, in
order, to the stops of `turns`, each with the book it meets. -/
inductive LoopTrace : Book × List (List Order) → List (Book × Order) → Book × List (List Order) →
    Prop
  | done (st : Book × List (List Order)) : LoopTrace st [] st
  | step {st st' st'' : Book × List (List Order)} {turns : List (Book × Order)} :
      LoopStep clock st st' → LoopTrace st' turns st'' → LoopTrace st (turnAt st ++ turns) st''

/-- Whether running `o` as a market order on `c` trades. -/
def executes (c : Book) (o : Order) : Bool := (c.execute o clock).isSome

/-- The executions of a market order that trade, in order, each with the book it meets: the
order itself, then every released stop of its cascade that trades, until nothing is pending. -/
inductive MarketTrace (b : Book) (id : UInt64) (side : Side) (size : UInt64) (user : String) :
    List (Book × Order) → Book → Prop
  | rest {b' : Book} {fs : List Fill} :
      b.execute (Order.market id side size user) clock = some (false, b', fs) →
      MarketTrace b id side size user [(b, Order.market id side size user)] b'
  | cascade {b₁ b' : Book} {fs : List Fill} {turns : List (Book × Order)} :
      b.execute (Order.market id side size user) clock = some (true, b₁, fs) →
      LoopTrace clock (b₁.cascadeStart side.opposite) turns (b', []) →
      MarketTrace b id side size user
        ((b, Order.market id side size user) :: turns.filter fun t => executes clock t.1 t.2) b'

/-- The loop's steps, counted, are a trace of its turns. -/
theorem LoopRuns.trace {n : Nat} {st st' : Book × List (List Order)} (h : LoopRuns clock n st st') :
    ∃ turns, LoopTrace clock st turns st' := by
  induction h with
  | done st => exact ⟨[], .done st⟩
  | step hs _ ih =>
    obtain ⟨turns, htr⟩ := ih
    exact ⟨_, .step hs htr⟩

/-- **Every call that trades has its trace**: the loop of its cascade runs to the empty stack,
and the book the call returns is where it ends. -/
theorem market_marketTrace {b b' : Book} {id : UInt64} {side : Side} {size : UInt64}
    {user : String} {fs : List Fill} (hm : b.market id side size user clock = some (b', fs)) :
    ∃ execs, MarketTrace clock b id side size user execs b' := by
  unfold market at hm
  split at hm
  · cases hm
  · rename_i b₁ fs₁ hx
    simp only [Option.some.injEq, Prod.mk.injEq] at hm
    rw [← hm.1]
    exact ⟨_, .rest hx⟩
  · rename_i b₁ fs₁ hx
    simp only [Option.some.injEq, Prod.mk.injEq] at hm
    -- the loop reaches the empty stack within the fuel the cascade gives
    obtain ⟨n, b'', hrun, hcount⟩ :=
      loopRuns_exists clock _ (cascadeStart_groupsNonEmpty b₁ side.opposite)
    rw [loopMeasure_cascadeStart] at hcount
    have hend : (b₁.cascade side.opposite clock).1 = b'' := by
      rw [cascade_eq]
      exact runStops_of_loopRuns clock hrun rfl _ [] (by omega)
    obtain ⟨turns, htr⟩ := hrun.trace clock
    rw [← hm.1, hend]
    exact ⟨_, .cascade hx htr⟩

/-- A step leaves a state with something pending. -/
theorem LoopStep.pending_ne_nil {st st' : Book × List (List Order)} (hs : LoopStep clock st st') :
    st.2 ≠ [] := by
  cases hs <;> simp

/-- The loop is deterministic: a state has at most one next state. -/
theorem LoopStep.deterministic {st st₁ st₂ : Book × List (List Order)} (h₁ : LoopStep clock st st₁)
    (h₂ : LoopStep clock st st₂) : st₁ = st₂ := by
  cases h₁ <;> cases h₂ <;> rfl

/-- **A run of the loop to the empty stack has one trace**: the turns it gives and the book it
ends in are determined by where it starts. -/
theorem LoopTrace.unique {st st₁ st₂ : Book × List (List Order)} {turns₁ turns₂ : List (Book × Order)}
    (h₁ : LoopTrace clock st turns₁ st₁) (h₂ : LoopTrace clock st turns₂ st₂) (e₁ : st₁.2 = [])
    (e₂ : st₂.2 = []) : turns₁ = turns₂ ∧ st₁ = st₂ := by
  induction h₁ generalizing turns₂ with
  | done st =>
    cases h₂ with
    | done => exact ⟨rfl, rfl⟩
    | step hs _ => exact absurd e₁ (hs.pending_ne_nil clock)
  | step hs₁ _ ih =>
    cases h₂ with
    | done => exact absurd e₂ (hs₁.pending_ne_nil clock)
    | step hs₂ htr₂ =>
      obtain rfl := hs₁.deterministic clock hs₂
      obtain ⟨rfl, rfl⟩ := ih htr₂ e₁
      exact ⟨rfl, rfl⟩

/-- A call has one trace: the executions it performs are determined by the book it meets. -/
theorem MarketTrace.unique {b b₁ b₂ : Book} {id : UInt64} {side : Side} {size : UInt64}
    {user : String} {execs₁ execs₂ : List (Book × Order)}
    (h₁ : MarketTrace clock b id side size user execs₁ b₁)
    (h₂ : MarketTrace clock b id side size user execs₂ b₂) : execs₁ = execs₂ ∧ b₁ = b₂ := by
  cases h₁ with
  | rest hx₁ =>
    cases h₂ with
    | rest hx₂ =>
      have h := hx₁.symm.trans hx₂
      simp only [Option.some.injEq, Prod.mk.injEq] at h
      obtain ⟨-, rfl, -⟩ := h
      exact ⟨rfl, rfl⟩
    | cascade hx₂ _ => simp [hx₁] at hx₂
  | cascade hx₁ htr₁ =>
    cases h₂ with
    | rest hx₂ => simp [hx₁] at hx₂
    | cascade hx₂ htr₂ =>
      have h := hx₁.symm.trans hx₂
      simp only [Option.some.injEq, Prod.mk.injEq] at h
      obtain ⟨-, rfl, -⟩ := h
      obtain ⟨rfl, h⟩ := htr₁.unique clock htr₂ rfl rfl
      exact ⟨rfl, (Prod.mk.inj h).1⟩

/-! ## Along the stop loop -/

/-- What holds at every state of the loop of a market order of side `side` that met `b₀`: the
frame, the invariant, and every stop of side `side` resting or pending rested in `b₀`. -/
structure Feeding (side : Side) (b₀ : Book) (st : Book × List (List Order)) : Prop where
  framed : Framed side b₀ st
  wf : st.1.WF
  rested : ∀ x ∈ (st.1.stopSide side).orders ++ st.2.flatten, x ∈ (b₀.stopSide side).orders

section Feeding

variable {side : Side} {b₀ : Book}

/-- A release takes the stops it keeps and those it pushes from the stop ladder of side
`side`, so it brings no stop of that side from anywhere else. -/
theorem rested_release {c : Book} {pending : List (List Order)} {S : List Order}
    (h : ∀ x ∈ (c.stopSide side).orders ++ pending.flatten, x ∈ S) :
    ∀ x ∈ ((c.release side.opposite).1.stopSide side).orders ++
      (pushGroup (c.release side.opposite).2 pending).flatten, x ∈ S := by
  have hkept := @mem_release_kept c side.opposite
  have hpushed := @mem_release c side.opposite
  rw [Side.opposite_opposite] at hkept hpushed
  intro x hx
  simp only [flatten_pushGroup, List.mem_append] at hx
  rcases hx with hx | hx | hx
  · exact h x (List.mem_append_left _ (hkept hx))
  · exact h x (List.mem_append_left _ (hpushed hx))
  · exact h x (List.mem_append_right _ hx)

/-- A drain of the other side keeps what feeds the loop. -/
theorem Feeding.release {c : Book} {pending : List (List Order)}
    (h : Feeding side b₀ (c, pending)) :
    Feeding side b₀ ((c.release side.opposite).1, pushGroup (c.release side.opposite).2 pending) :=
  ⟨h.framed.release, release_wf h.wf side.opposite, rested_release h.rested⟩

/-- **One step of the loop keeps what feeds it.** -/
theorem LoopStep.feeding {st st' : Book × List (List Order)} (hs : LoopStep clock st st')
    (h : Feeding side b₀ st) : Feeding side b₀ st' := by
  refine ⟨hs.framed clock h.framed, LoopStep.book_invariant clock WF
    (fun _ _ _ _ _ hb hx => execute_wf hb hx) (fun _ s hb => release_wf hb s) hs h.wf, ?_⟩
  cases hs with
  | pop b rest => exact fun x hx => h.rested x (by simpa using hx)
  | turn b stop group rest =>
    have hstop : stop.side = side := h.framed.pending stop (by simp)
    -- the rest of the group stays pending, below the stop taking its turn
    have hsub : (pushGroup group rest).flatten ⊆ ((stop :: group) :: rest).flatten := by
      rw [flatten_pushGroup]
      exact List.subset_cons_self _ _
    have hrest : ∀ x ∈ (b.stopSide side).orders ++ (pushGroup group rest).flatten,
        x ∈ (b₀.stopSide side).orders := by
      intro x hx
      rcases List.mem_append.1 hx with hx | hx
      · exact h.rested x (List.mem_append_left _ hx)
      · exact h.rested x (List.mem_append_right _ (hsub hx))
    rcases stopTurn_cases clock b stop (pushGroup group rest) with
      ⟨-, heq⟩ | ⟨b', fs, hx, heq⟩ | ⟨b', fs, hx, heq⟩ <;> rw [heq]
    · exact hrest
    · simpa [execute_stopSide hx] using hrest
    · rw [hstop]
      exact rested_release (by simpa [execute_stopSide hx] using hrest)

/-- **Along the loop the ladder pays for every stop that trades.**  From a state that feeds the
loop, the limit ladder of the other side loses exactly the sizes of the stops that trade on the
way, and the history gains exactly their logs; every one of those stops rested in `b₀` on the
taker's side. -/
theorem LoopTrace.trades {st st' : Book × List (List Order)} {turns : List (Book × Order)}
    (h : LoopTrace clock st turns st') (hf : Feeding side b₀ st) :
    ∃ ts : List Trade, ts.map (fun t => (t.book, t.order)) = turns.filter (fun t => executes clock t.1 t.2) ∧
      (∀ t ∈ ts, (∃ c', t.Done clock c') ∧ t.order ∈ (b₀.stopSide side).orders) ∧
      Level.sizeSum (st.1.limitSide side.opposite).orders =
        Level.sizeSum (st'.1.limitSide side.opposite).orders + Level.sizeSum (ts.map (·.order)) ∧
      st'.1.history = st.1.history ++ ts.flatMap (Trade.log clock) := by
  induction h with
  | done st => exact ⟨[], rfl, by simp, by simp, by simp⟩
  | @step st st₁ st'' turns hs _ ih =>
    obtain ⟨ts, hmap, hdone, hsize, hhist⟩ := ih (hs.feeding clock hf)
    cases hs with
    | pop b rest => exact ⟨ts, by simpa [turnAt] using hmap, hdone, hsize, hhist⟩
    | turn b stop group rest =>
      have hstop : stop.side = side := hf.framed.pending stop (by simp)
      have hmem : stop ∈ (b₀.stopSide side).orders := hf.rested stop (by simp)
      rcases stopTurn_cases clock b stop (pushGroup group rest) with
        ⟨hnone, heq⟩ | ⟨b', fs, hx, heq⟩ | ⟨b', fs, hx, heq⟩ <;> rw [heq] at hsize hhist
      · -- the stop cannot trade and is dropped
        refine ⟨ts, ?_, hdone, hsize, hhist⟩
        simp [turnAt, executes, hnone, hmap]
      all_goals
        obtain ⟨t, rfl, rfl, hd⟩ := execute_done hf.wf hx
        refine ⟨t :: ts, ?_, ?_, ?_, ?_⟩
        · simp [turnAt, executes, hx, hmap]
        · exact List.forall_mem_cons.2 ⟨⟨⟨_, hd⟩, hmem⟩, hdone⟩
        · have := hd.sizeSum
          rw [hstop] at this
          simp only [release_limitSide] at hsize
          simp only [List.map_cons, Level.sizeSum_cons]
          omega
        · simp only [(release_accounting _ _).2.2] at hhist
          rw [hhist, hd.logged, List.flatMap_cons, List.append_assoc]

end Feeding

/-- The call starts its loop feeding it, after its own draining execution and the release. -/
theorem Feeding.start {b : Book} (hwf : b.WF) (hown : b.StopsOnOwnSide) {id size : UInt64}
    {side : Side} {user : String} {b₁ : Book} {fs : List Fill}
    (hx : b.execute (Order.market id side size user) clock = some (true, b₁, fs)) :
    Feeding side b (b₁.cascadeStart side.opposite) :=
  Feeding.release ⟨(Framed.init hown).execute clock rfl hx, execute_wf hwf hx,
    by simp [execute_stopSide hx]⟩

/-- **A call pays for every order that trades in it.**  Along the trace of a market order on a
well-formed book with every stop on its own side, every execution is a trade; the first is the
order itself on the book it met, the others are stops of its side that rested in that book; the
opposite limit ladder loses exactly the sizes of all of them, and the history gains their logs in
order. -/
theorem MarketTrace.trades {b b' : Book} (hwf : b.WF) (hown : b.StopsOnOwnSide) {id : UInt64}
    {side : Side} {size : UInt64} {user : String} {execs : List (Book × Order)}
    (h : MarketTrace clock b id side size user execs b') :
    ∃ t₀ ts, (t₀ :: ts).map (fun t => (t.book, t.order)) = execs ∧
      t₀.book = b ∧ t₀.order = Order.market id side size user ∧
      (∀ t ∈ t₀ :: ts, ∃ c', t.Done clock c') ∧ (∀ t ∈ ts, t.order ∈ (b.stopSide side).orders) ∧
      Level.sizeSum (b.limitSide side.opposite).orders =
        Level.sizeSum (b'.limitSide side.opposite).orders + size.toNat +
          Level.sizeSum (ts.map (·.order)) ∧
      b'.history = b.history ++ (t₀ :: ts).flatMap (Trade.log clock) := by
  cases h with
  | rest hx =>
    obtain ⟨t₀, h₀, ho, hd⟩ := execute_done hwf hx
    have hsize := hd.sizeSum
    rw [h₀, ho] at hsize
    refine ⟨t₀, [], by simp [h₀, ho], h₀, ho, by simpa using ⟨_, hd⟩, by simp, ?_, ?_⟩
    · simpa [Order.market] using hsize
    · rw [hd.logged, h₀]
      simp
  | @cascade b₁ _ fs turns hx htr =>
    obtain ⟨t₀, h₀, ho, hd⟩ := execute_done hwf hx
    have hsize₀ := hd.sizeSum
    rw [h₀, ho] at hsize₀
    obtain ⟨ts, hmap, hdone, hsize, hhist⟩ := htr.trades clock (Feeding.start clock hwf hown hx)
    refine ⟨t₀, ts, by simp [h₀, ho, hmap], h₀, ho, List.forall_mem_cons.2 ⟨⟨_, hd⟩,
      fun t ht => (hdone t ht).1⟩, fun t ht => (hdone t ht).2, ?_, ?_⟩
    · -- the release that starts the loop touches no limit ladder
      simp only [cascadeStart, release_limitSide] at hsize
      simp only [Order.market] at hsize₀
      omega
    · simp only [cascadeStart, (release_accounting _ _).2.2] at hhist
      rw [hhist, hd.logged, h₀, List.flatMap_cons, List.append_assoc]

/-- The sizes of a list of trades are the makers they took whole and their cuts. -/
theorem sizeSum_trades {ts : List Trade} (h : ∀ t ∈ ts, ∃ c', t.Done clock c') :
    Level.sizeSum (ts.map (·.order)) = Level.sizeSum (ts.flatMap (·.taken)) + (ts.map (·.cut)).sum := by
  induction ts with
  | nil => rfl
  | cons t ts ih =>
    obtain ⟨c', hd⟩ := h t List.mem_cons_self
    have := ih fun t' ht' => h t' (List.mem_cons_of_mem _ ht')
    simp only [List.map_cons, List.flatMap_cons, Level.sizeSum_cons, Level.sizeSum_append,
      List.sum_cons, hd.size_eq]
    omega

/-- **The matched quantity is conserved through the whole cascade.**  On a well-formed book
with every stop on its own side, take a market order of side `side` and size `S` that trades.
Its executions that trade, in order (`MarketTrace`), are the order itself and then each
released stop that trades, every one a stop of side `side` that rested in the book; each is a
trade (`Trade.Done`).  The limit ladder of the other side loses exactly `S` plus the sizes of
those stops; that amount is the sizes of the makers they took whole plus the cuts they made in
makers left partly filled; and the history gains, execution by execution, the makers taken
whole and then the order, each stop with its full resting size. -/
theorem market_conserves_matched_size {b : Book} (hwf : b.WF) (hown : b.StopsOnOwnSide)
    {id : UInt64} {side : Side} {size : UInt64} {user : String} {b' : Book} {fs : List Fill}
    (hm : b.market id side size user clock = some (b', fs)) :
    ∃ t₀ ts, MarketTrace clock b id side size user ((t₀ :: ts).map fun t => (t.book, t.order)) b' ∧
      t₀.book = b ∧ t₀.order = Order.market id side size user ∧
      (∀ t ∈ t₀ :: ts, ∃ c', t.Done clock c') ∧ (∀ t ∈ ts, t.order ∈ (b.stopSide side).orders) ∧
      Level.sizeSum (b.limitSide side.opposite).orders =
        Level.sizeSum (b'.limitSide side.opposite).orders + size.toNat +
          Level.sizeSum (ts.map (·.order)) ∧
      size.toNat + Level.sizeSum (ts.map (·.order)) =
        Level.sizeSum ((t₀ :: ts).flatMap (·.taken)) + ((t₀ :: ts).map (·.cut)).sum ∧
      b'.history = b.history ++ (t₀ :: ts).flatMap (Trade.log clock) := by
  obtain ⟨execs, htrace⟩ := market_marketTrace clock hm
  obtain ⟨t₀, ts, hmap, h₀, ho, hdone, hstops, hsize, hhist⟩ := htrace.trades clock hwf hown
  refine ⟨t₀, ts, hmap ▸ htrace, h₀, ho, hdone, hstops, hsize, ?_, hhist⟩
  -- the order's own size is `S`, and each trade's size splits into makers and cut
  have hsplit := sizeSum_trades clock hdone
  simp only [List.map_cons, Level.sizeSum_cons, ho, Order.market] at hsplit
  exact hsplit

/-- Asks of 2 at 100 and 3 at 102, and a buy stop of 2 at 101. -/
def stopCutBook : Book :=
  ((empty.insertLimit (Order.limit 1 .ask 2 100 "m")).insertLimit
    (Order.limit 2 .ask 3 102 "m")).insertStop (Order.stop 5 .bid 2 101 "s")

/-- A buy of 2 takes the ask at 100 whole and drains that level, which releases the stop; the
stop cuts 2 off the ask at 102. -/
theorem market_conserves_matched_size_stop_cut :
    stopCutBook.WF ∧ stopCutBook.StopsOnOwnSide ∧
    ∃ b' fs, stopCutBook.market 6 .bid 2 "t" 10 = some (b', fs) ∧
      ∃ (t₀ : Trade) (ts : List Trade), (∀ t ∈ t₀ :: ts, ∃ c', t.Done 10 c') ∧
        Level.sizeSum (stopCutBook.limitSide .ask).orders =
          Level.sizeSum (b'.limitSide .ask).orders + 2 + Level.sizeSum (ts.map (·.order)) := by
  have hwf : stopCutBook.WF :=
    insertStop_wf (insertLimit_wf (insertLimit_wf empty_wf (by decide)) (by decide)) (by decide)
  have hown : stopCutBook.StopsOnOwnSide :=
    ((StopsOnOwnSide.empty.insertLimit _).insertLimit _).insertStop _
  obtain ⟨⟨b', fs⟩, hm⟩ : ∃ r, stopCutBook.market 6 .bid 2 "t" 10 = some r :=
    Option.isSome_iff_exists.1 (by decide +kernel)
  obtain ⟨t₀, ts, -, -, -, hdone, -, hsize, -⟩ := market_conserves_matched_size 10 hwf hown hm
  exact ⟨hwf, hown, b', fs, hm, t₀, ts, hdone, hsize⟩

end Book

end Bourse
