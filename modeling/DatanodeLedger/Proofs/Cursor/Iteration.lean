import DatanodeLedger.Proofs.Membership.Mirror
import DatanodeLedger.Proofs.Membership.Walking

/-! Iterations that the service does not wait for. Between two pulls of an iterator any steps may be taken;
what is said of a whole iteration rests on what one pull answers on the ledger that it happens to see. -/
namespace DatanodeLedger
variable {ι α : Type}

/-- What happens next during an iteration: the service takes a step, or the iterator is called. -/
inductive Move where
  | step (step : Step)
  | next

/-- The steps among the moves. -/
def Move.steps : List Move → List Step
  | [] => []
  | .step taken :: moves => taken :: steps moves
  | .next :: moves => steps moves

/-- A pull of an iterator, with the ledger that it saw. -/
structure Pull (α : Type) where
  ledger : Ledger
  answer : Option α

/-- The pulls are answered with these one after the other, and then with nothing any more. -/
def Answered (pulls : List (Pull α)) (as : List α) : Prop :=
  pulls.map Pull.answer = (List.range pulls.length).map fun k => as[k]?

namespace Answered
variable {pulls : List (Pull α)} {a : α} {as : List α}

theorem cons (l : Ledger) (h : Answered pulls as) : Answered (⟨l, some a⟩ :: pulls) (a :: as) := by
  rw [Answered, List.length_cons, List.range_succ_eq_map, List.map_cons, List.map_cons, List.map_map, h]
  rfl

theorem done (l : Ledger) (h : Answered pulls []) : Answered (⟨l, none⟩ :: pulls) [] := by
  rw [Answered, List.length_cons, List.range_succ_eq_map, List.map_cons, List.map_cons, List.map_map, h]
  rfl

/-- Enough pulls bring all that there is. -/
theorem filterMap_eq (h : Answered pulls as) (hlength : as.length ≤ pulls.length) :
    pulls.filterMap Pull.answer = as := by
  induction pulls generalizing as with
  | nil => exact (List.length_eq_zero_iff.1 (Nat.le_zero.1 hlength)).symm
  | cons pull pulls ih =>
    rw [Answered, List.length_cons, List.range_succ_eq_map, List.map_cons, List.map_cons, List.map_map] at h
    obtain ⟨hfirst, hrest⟩ := List.cons.inj h
    cases as with
    | nil => exact (List.filterMap_cons_none hfirst).trans (ih hrest (Nat.zero_le _))
    | cons a as =>
      rw [List.filterMap_cons_some hfirst]
      exact congrArg (a :: ·) (ih hrest (Nat.le_of_succ_le_succ hlength))

end Answered

/-- What an iterator answers on a ledger, and where it stands then. -/
abbrev Next (ι α : Type) := Ledger → ι → Except Fault (Option α × ι)

/-- The next block of a cursor, with the volume that it is from. -/
def Cursor.locate : Next Cursor (StorageRef × BlockRef) := fun l c => do
  let (block, c) ← c.next l
  pure (block.map (c.storage, ·), c)

/-- The next block of a walk, with the volume that it is from: that of the cursor in front by then. -/
def Walk.locate : Next Walk (StorageRef × BlockRef) := fun l w => do
  let (block, w) ← Walk.next l w.cursors
  pure (block.bind fun b => w.cursors.head?.map (·.storage, b), w)

section
variable {l : Ledger} {c : Cursor} {b : BlockRef} {bs : List BlockRef}

theorem Cursor.Gives.locate_cons (h : c.Gives l (b :: bs)) : ∃ position,
    c.locate l = .ok (some (c.storage, b), { c with position }) ∧ Cursor.Gives l { c with position } bs := by
  obtain ⟨position, hnext, hrest⟩ := h.next_cons
  refine ⟨position, ?_, hrest⟩
  simp only [Cursor.locate, hnext, bind, Except.bind, pure, Except.pure, Option.map_some]

theorem Cursor.Gives.locate_nil (h : c.Gives l []) : c.locate l = .ok (none, { c with position := .done }) := by
  simp only [Cursor.locate, h.next_nil, bind, Except.bind, pure, Except.pure, Option.map_none]

theorem Walk.Gives.locate_cons {w : Walk} {v : StorageRef} {ps : List (StorageRef × BlockRef)}
    (h : Walk.Gives l w.cursors ((v, b) :: ps)) : ∃ w', w.locate l = .ok (some (v, b), w') ∧
      Walk.Gives l w'.cursors ps ∧ w'.cursors.map Cursor.storage <:+ w.cursors.map Cursor.storage := by
  obtain ⟨position, post, hnext, hrest, hsuffix⟩ := h.next_cons
  refine ⟨_, ?_, hrest, hsuffix⟩
  simp only [Walk.locate, hnext, bind, Except.bind, pure, Except.pure, Option.bind_some, List.head?_cons,
    Option.map_some]

theorem Walk.Gives.locate_nil {w : Walk} (h : Walk.Gives l w.cursors []) : w.locate l = .ok (none, ⟨[]⟩) := by
  simp only [Walk.locate, h.next_nil, bind, Except.bind, pure, Except.pure, Option.bind_none]

end

namespace Service

/-- The pulls among the moves, and where they leave the iterator. -/
def iterate (next : Next ι α) (s : Service) (i : ι) : List Move → Except Fault (List (Pull α) × ι)
  | [] => .ok ([], i)
  | .step step :: moves => (step.after s).iterate next i moves
  | .next :: moves => do
    let (answer, i) ← next s.ledger i
    let (pulls, last) ← s.iterate next i moves
    pure (⟨s.ledger, answer⟩ :: pulls, last)

/-- The lists of the volumes, down to their slots, are what they are on a ledger. -/
def Still (l : Ledger) (vs : List StorageRef) (s : Service) : Prop :=
  ∀ v ∈ vs, (s.ledger.storage v).blocks = (l.storage v).blocks

/-- As long as the lists of the volumes stand still, the iterator answers with these one after the other, and
then with nothing any more. -/
def Yields (next : Next ι α) (vs : List StorageRef) (s : Service) (i : ι) (as : List α) : Prop :=
  ∀ moves, s.Throughout (Still s.ledger vs) (Move.steps moves) → ∃ pulls last,
    s.iterate next i moves = .ok (pulls, last) ∧ Answered pulls as

section
variable {next : Next ι α} {s : Service} {i i' : ι} {a : Option α} {moves : List Move}

theorem iterate_next (h : next s.ledger i = .ok (a, i')) {pulls : List (Pull α)} {last : ι}
    (hrest : s.iterate next i' moves = .ok (pulls, last)) :
    s.iterate next i (.next :: moves) = .ok (⟨s.ledger, a⟩ :: pulls, last) := by
  simp only [iterate, h, hrest, bind, Except.bind, pure, Except.pure]

/-- An iterator that has its answers before it, one for each pull, keeps to them while nothing that bears on
them changes. -/
theorem yields_of {P : Ledger → ι → List α → Prop} {vs : List StorageRef}
    (hcongr : ∀ {l l' i as}, P l i as → (∀ v ∈ vs, (l'.storage v).blocks = (l.storage v).blocks) → P l' i as)
    (hcons : ∀ {l i a as}, P l i (a :: as) → ∃ i', next l i = .ok (some a, i') ∧ P l i' as)
    (hnil : ∀ {l i}, P l i [] → ∃ i', next l i = .ok (none, i') ∧ P l i' [])
    {as : List α} (h : P s.ledger i as) : s.Yields next vs i as := by
  suffices hall : ∀ (l : Ledger) moves (s : Service) i as, P l i as → s.Throughout (Still l vs) (Move.steps moves) →
      ∃ pulls last, s.iterate next i moves = .ok (pulls, last) ∧ Answered pulls as from
    fun moves hmoves => hall s.ledger moves s i as h hmoves
  intro l moves
  induction moves with
  | nil => exact fun s i as _ _ => ⟨[], i, rfl, rfl⟩
  | cons move moves ih =>
    intro s i as hP hstill
    cases move with
    | step step => exact ih (step.after s) i as hP hstill.2
    | next =>
      have hs : P s.ledger i as := hcongr hP hstill.head
      have hback : ∀ {i as}, P s.ledger i as → P l i as := fun h =>
        hcongr h fun v hv => (hstill.head v hv).symm
      cases as with
      | nil =>
        obtain ⟨i', hnext, hP'⟩ := hnil hs
        obtain ⟨pulls, last, hpulls, hanswers⟩ := ih s i' [] (hback hP') hstill
        exact ⟨_, last, iterate_next hnext hpulls, hanswers.done s.ledger⟩
      | cons a as =>
        obtain ⟨i', hnext, hP'⟩ := hcons hs
        obtain ⟨pulls, last, hpulls, hanswers⟩ := ih s i' as (hback hP') hstill
        exact ⟨_, last, iterate_next hnext hpulls, hanswers.cons s.ledger⟩

/-- What every pull keeps is kept by an iteration, whatever steps are taken in between; what holds of every
answer holds of all of them on the ledgers that they were given on; and an iterator that is done stays done. -/
theorem iterate_of_invariant {I D : ι → Prop} {Q : Ledger → α → Prop}
    (hnext : ∀ l i, l.Coherent → I i → ∃ a i', next l i = .ok (a, i') ∧ I i' ∧
      (∀ p, a = some p → Q l p) ∧ (a = none → D i'))
    (hdone : ∀ l i, D i → ∃ i', next l i = .ok (none, i') ∧ D i')
    (h : Reachable s) (hi : I i) (hmoves : s.Legal (Move.steps moves)) :
    ∃ pulls last, s.iterate next i moves = .ok (pulls, last) ∧ I last ∧
      (∀ pull ∈ pulls, ∀ p, pull.answer = some p → Q pull.ledger p) ∧
      pulls.Pairwise (fun pull later => pull.answer = none → later.answer = none) ∧
      (D i → ∀ pull ∈ pulls, pull.answer = none) := by
  induction moves generalizing s i with
  | nil => exact ⟨[], i, rfl, hi, by simp, .nil, by simp⟩
  | cons move moves ih =>
    cases move with
    | step step => exact ih (h.step hmoves.1) hi hmoves.2
    | next =>
      obtain ⟨a, i', he, hi', hanswer, hstop⟩ := hnext s.ledger i h.coherent hi
      obtain ⟨pulls, last, hpulls, hlast, hanswers, hquiet, hrest⟩ := ih h hi' hmoves
      refine ⟨_, last, iterate_next he hpulls, hlast, List.forall_mem_cons.2 ⟨hanswer, hanswers⟩,
        List.pairwise_cons.2 ⟨fun later hlater hnone => hrest (hstop hnone) later hlater, hquiet⟩, fun hd => ?_⟩
      obtain ⟨j, hj, hd'⟩ := hdone s.ledger i hd
      rw [he] at hj
      cases hj
      exact List.forall_mem_cons.2 ⟨rfl, hrest hd'⟩

end
end Service

theorem Cursor.Gives.yields {s : Service} {c : Cursor} {bs : List BlockRef} (h : c.Gives s.ledger bs) :
    s.Yields Cursor.locate [c.storage] c (bs.map (c.storage, ·)) := by
  let P (l : Ledger) (c' : Cursor) (as : List (StorageRef × BlockRef)) : Prop :=
    c'.storage = c.storage ∧ ∃ bs, c'.Gives l bs ∧ as = bs.map (c.storage, ·)
  refine Service.yields_of (P := P) ?_ ?_ ?_ ⟨rfl, bs, h, rfl⟩
  · rintro l l' c' as ⟨hc, bs, hgives, rfl⟩ hstill
    exact ⟨hc, bs, hgives.congr (hstill _ (List.mem_singleton.2 hc)), rfl⟩
  · rintro l c' a as ⟨hc, bs, hgives, has⟩
    cases bs with
    | nil => cases has
    | cons b bs =>
      obtain ⟨rfl, rfl⟩ := List.cons.inj has
      obtain ⟨position, hlocate, hrest⟩ := hgives.locate_cons
      exact ⟨{ c' with position }, hc ▸ hlocate, hc, bs, hrest, rfl⟩
  · rintro l c' ⟨hc, bs, hgives, has⟩
    cases List.map_eq_nil_iff.1 has.symm
    exact ⟨{ c' with position := .done }, hgives.locate_nil, hc, [], .of_done rfl, rfl⟩

theorem Walk.Gives.yields {s : Service} {w : Walk} {vs : List StorageRef} {ps : List (StorageRef × BlockRef)}
    (h : Walk.Gives s.ledger w.cursors ps) (hvs : w.cursors.map Cursor.storage ⊆ vs) :
    s.Yields Walk.locate vs w ps := by
  let P (l : Ledger) (w' : Walk) (ps : List (StorageRef × BlockRef)) : Prop :=
    w'.cursors.map Cursor.storage ⊆ vs ∧ Walk.Gives l w'.cursors ps
  refine Service.yields_of (P := P) ?_ ?_ ?_ ⟨hvs, h⟩
  · rintro l l' w' ps ⟨hw, hgives⟩ hstill
    exact ⟨hw, hgives.congr fun c hc => hstill _ (hw (List.mem_map_of_mem hc))⟩
  · rintro l w' ⟨v, b⟩ ps ⟨hw, hgives⟩
    obtain ⟨w'', hlocate, hrest, hsuffix⟩ := hgives.locate_cons
    exact ⟨w'', hlocate, List.Subset.trans hsuffix.subset hw, hrest⟩
  · rintro l w' ⟨-, hgives⟩
    exact ⟨⟨[]⟩, hgives.locate_nil, List.nil_subset _, .nil⟩

end DatanodeLedger
