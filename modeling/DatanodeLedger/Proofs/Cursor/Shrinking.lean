import DatanodeLedger.Proofs.Cursor.Iteration
import DatanodeLedger.Proofs.Membership.Arrivals
import Mathlib.Data.List.Infix
import Mathlib.Data.List.Perm.Subperm

/-! Iterations over a list that blocks are taken off. As long as the slot that a cursor remembers is not given
back, the cursor has ahead of it what is left of what was there; if the slot is given back, and nothing is put
into it any more, the cursor has come to its end. -/
namespace DatanodeLedger
variable {s : Service} {l l' : Ledger} {c : Cursor} {b : BlockRef} {bs : List BlockRef} {moves : List Move}

/-- The end of a list has lost nothing if nothing of it is missing in what is left of the list. -/
private theorem eq_of_subset {α : Type} {as as' bs bs' : List α} (hd : (as ++ bs).Nodup) (has : as'.Sublist as)
    (hbs : bs'.Sublist bs) (h : bs ⊆ as' ++ bs') : bs' = bs := by
  obtain ⟨-, hd', hdisjoint⟩ := List.nodup_append.1 hd
  have hsub : bs ⊆ bs' := by
    intro b hb
    rcases List.mem_append.1 (h hb) with hb' | hb'
    · exact (hdisjoint b (has.subset hb') b hb rfl).elim
    · exact hb'
  exact hbs.eq_of_length_le (hd'.subperm hsub).length_le

namespace Cursor.Gives

/-- Where blocks are taken off its list, a cursor goes on to give out fewer, but all of them unless one of them
is among those that are taken off. -/
theorem shed (h : c.Gives l bs) (hl : l.Coherent) (hl' : l'.Coherent) (hshed : l.Sheds c.storage l') :
    ∃ bs', c.Gives l' bs' ∧ bs'.Sublist bs ∧ (bs ⊆ l'.listed c.storage → bs' = bs) := by
  rcases c with ⟨v, position⟩
  cases position with
  | start =>
    obtain rfl := h.unique (hl.gives v)
    have hsub := hl.sublist_of_sheds hshed
    exact ⟨_, hl'.gives v, hsub, eq_of_subset (hl.listed_nodup v) .slnil hsub⟩
  | done =>
    obtain rfl := h.unique (.of_done rfl)
    exact ⟨[], .of_done rfl, .slnil, fun _ => rfl⟩
  | slot i =>
    obtain ⟨row, hlay⟩ := hl.exists_layout v
    obtain ⟨row', hlay', hsub⟩ := hshed row hlay
    have hnodup := hl.listed_nodup v
    rw [Ledger.listed_of_layout hlay] at hnodup
    rw [Ledger.listed_of_layout hlay']
    by_cases hi' : i ∈ row'.map Slab.Seat.slot
    · obtain ⟨x, pre, post, pre', post', rfl, rfl, rfl, hpre, hpost⟩ := Slab.exists_split_of_sublist hsub hi'
      obtain rfl := h.unique (.of_seat hlay rfl)
      have hbehind := (hpost.cons_cons x).map Slab.Seat.value
      refine ⟨_, .of_seat hlay' rfl, hbehind, fun hall => ?_⟩
      rw [List.map_append] at hnodup hall
      exact eq_of_subset hnodup (hpre.map _) hbehind hall
    · refine ⟨[], .of_notMem hlay' rfl hi', List.nil_sublist bs, fun hall => ?_⟩
      by_cases hi : i ∈ row.map Slab.Seat.slot
      · -- the seat in the slot is gone, and its block with it
        obtain ⟨x, hx, rfl⟩ := List.mem_map.1 hi
        obtain ⟨pre, post, rfl⟩ := List.append_of_mem hx
        obtain rfl := h.unique (.of_seat hlay rfl)
        obtain ⟨y, hy, hvalue⟩ := List.mem_map.1 (hall List.mem_cons_self)
        obtain rfl := List.inj_on_of_nodup_map hnodup (hsub.subset hy) hx hvalue
        exact (hi' (List.mem_map_of_mem hy)).elim
      · exact (h.unique (.of_notMem hlay rfl hi)).symm

end Cursor.Gives

namespace Service

/-- At every point of an iteration the blocks are on the list of the volume, but for those that the cursor has
given out by then. -/
def KeptUntilGiven (s : Service) (c : Cursor) (bs : List BlockRef) (moves : List Move) : Prop :=
  ∀ m ∈ moves.inits, ∀ r ∈ (s.iterate Cursor.locate c m).toOption, ∀ b ∈ bs,
    b ∈ (s.run (Move.steps m)).ledger.listed c.storage ∨ some (c.storage, b) ∈ r.1.map Pull.answer

instance (s : Service) (c : Cursor) (bs : List BlockRef) (moves : List Move) :
    Decidable (s.KeptUntilGiven c bs moves) :=
  inferInstanceAs (Decidable (∀ m ∈ moves.inits, ∀ r ∈ (s.iterate Cursor.locate c m).toOption, ∀ b ∈ bs, _ ∨ _))

namespace KeptUntilGiven

private theorem cons_mem_inits {move : Move} {m : List Move} (h : m ∈ moves.inits) :
    move :: m ∈ (move :: moves).inits :=
  List.mem_cons_of_mem [] (List.mem_map_of_mem h)

theorem subset (h : s.KeptUntilGiven c bs moves) : bs ⊆ s.ledger.listed c.storage := by
  intro b hb
  rcases h [] ((List.mem_inits _ _).2 List.nil_prefix) ([], c) rfl b hb with hlisted | hgiven
  · exact hlisted
  · cases hgiven

theorem step {step : Step} (h : s.KeptUntilGiven c bs (.step step :: moves)) :
    (step.after s).KeptUntilGiven c bs moves :=
  fun m hm => h (.step step :: m) (cons_mem_inits hm)

theorem next {position : Position} (h : s.KeptUntilGiven c (b :: bs) (.next :: moves)) (hb : b ∉ bs)
    (hlocate : c.locate s.ledger = .ok (some (c.storage, b), { c with position })) :
    s.KeptUntilGiven { c with position } bs moves := by
  intro m hm r hr b' hb'
  cases hpulls : s.iterate Cursor.locate { c with position } m with
  | error e =>
    rw [hpulls] at hr
    cases hr
  | ok p =>
    rw [hpulls] at hr
    cases hr
    have hall := iterate_next hlocate hpulls
    rcases h (.next :: m) (cons_mem_inits hm) _ (by rw [hall]; rfl) b' (List.mem_cons_of_mem b hb') with
      hlisted | hgiven
    · exact .inl hlisted
    · rcases List.mem_cons.1 hgiven with heq | hgiven
      · cases heq
        exact (hb hb').elim
      · exact .inr hgiven

end KeptUntilGiven
end Service

/-- A cursor that is called while nothing is put on its list gives out some of what it would have given out, in
the same order, and all of it if that is kept for it. -/
theorem Cursor.Gives.iterate (h : c.Gives s.ledger bs) (hs : Reachable s) (hd : bs.Nodup)
    (hmoves : s.Legal (Move.steps moves)) (hv : s.Never (Step.Inserts c.storage) (Move.steps moves)) :
    ∃ pulls last, s.iterate Cursor.locate c moves = .ok (pulls, last) ∧
      (pulls.filterMap Pull.answer).Sublist (bs.map (c.storage, ·)) ∧
      (s.KeptUntilGiven c bs moves → Answered pulls (bs.map (c.storage, ·))) := by
  induction moves generalizing s c bs with
  | nil => exact ⟨[], c, rfl, List.nil_sublist _, fun _ => rfl⟩
  | cons move moves ih =>
    cases move with
    | step step =>
      have hs' := hs.step hmoves.1
      obtain ⟨bs', h', hsub, hsame⟩ :=
        h.shed hs.coherent hs'.coherent (step.sheds_after hs.coherent hmoves.1 hv.1)
      obtain ⟨pulls, last, hpulls, hgiven, hall⟩ := ih h' hs' (hd.sublist hsub) hmoves.2 hv.2
      refine ⟨pulls, last, hpulls, hgiven.trans (hsub.map _), fun hkept => ?_⟩
      obtain rfl := hsame hkept.step.subset
      exact hall hkept.step
    | next =>
      cases bs with
      | nil =>
        have hdone : Cursor.Gives s.ledger { c with position := .done } [] := .of_done rfl
        obtain ⟨pulls, last, hpulls, hgiven, hall⟩ := ih hdone hs .nil hmoves hv
        refine ⟨_, last, Service.iterate_next h.locate_nil hpulls, hgiven, fun _ => (hall ?_).done s.ledger⟩
        exact fun _ _ _ _ b hb => (List.not_mem_nil hb).elim
      | cons b bs =>
        obtain ⟨position, hlocate, hrest⟩ := h.locate_cons
        obtain ⟨hb, hd⟩ := List.nodup_cons.1 hd
        obtain ⟨pulls, last, hpulls, hgiven, hall⟩ := ih hrest hs hd hmoves hv
        refine ⟨_, last, Service.iterate_next hlocate hpulls, hgiven.cons_cons _, fun hkept => ?_⟩
        exact (hall (hkept.next hb hlocate)).cons s.ledger

/-- While nothing is put on the list of a volume, whatever is taken off it, a cursor over the list gives out some
of its blocks, in their order and none of them twice. If a block is taken off only after it has been given out,
the pulls bring the list, block by block, and then nothing, so that enough of them bring exactly the list. -/
theorem iteration_of_shrinking_list (hs : Reachable s) (v : StorageRef) (hmoves : s.Legal (Move.steps moves))
    (hv : s.Never (Step.Inserts v) (Move.steps moves)) :
    ∃ pulls last, s.iterate Cursor.locate { storage := v } moves = .ok (pulls, last) ∧
      (pulls.filterMap Pull.answer).Sublist ((s.ledger.listed v).map (v, ·)) ∧
      (pulls.filterMap Pull.answer).Nodup ∧
      (s.KeptUntilGiven { storage := v } (s.ledger.listed v) moves →
        Answered pulls ((s.ledger.listed v).map (v, ·)) ∧
        ((s.ledger.listed v).length ≤ pulls.length →
          pulls.filterMap Pull.answer = (s.ledger.listed v).map (v, ·))) := by
  have hl := hs.coherent
  have hnodup : ((s.ledger.listed v).map (v, ·)).Nodup :=
    (hl.listed_nodup v).map fun b b' hbb' => (Prod.mk.inj hbb').2
  obtain ⟨pulls, last, hpulls, hgiven, hall⟩ := (hl.gives v).iterate hs (hl.listed_nodup v) hmoves hv
  refine ⟨pulls, last, hpulls, hgiven, hnodup.sublist hgiven, fun hkept => ⟨hall hkept, fun hlength => ?_⟩⟩
  rw [← List.length_map] at hlength
  exact (hall hkept).filterMap_eq hlength

/-- Three blocks on a volume, and one on another. -/
def shrinkingSteps : List Step :=
  [.makeCoordinator {}, .makeBlock ⟨1, 10, 1⟩ 3, .makeBlock ⟨2, 10, 1⟩ 3, .makeBlock ⟨3, 10, 1⟩ 3,
    .makeBlock ⟨4, 10, 1⟩ 3,
    .register ⟨0⟩ (.ofAddress "n" "10.0.0.1" 9866) [{ id := "A" }, { id := "B" }],
    .addReportedBlock ⟨0⟩ "n" "A" ⟨0⟩, .addReportedBlock ⟨0⟩ "n" "A" ⟨1⟩, .addReportedBlock ⟨0⟩ "n" "A" ⟨2⟩,
    .addReportedBlock ⟨0⟩ "n" "B" ⟨3⟩]

/-- Every block is taken off right after it has been given out; the first of them moves to the other volume. -/
def shrinkingMoves : List Move :=
  [.next, .step (.addBlock ⟨⟨0⟩⟩ ⟨0⟩ "B" ⟨2⟩), .next, .step (.removeBlock ⟨⟨0⟩⟩ ⟨0⟩ ⟨1⟩), .next,
    .step (.removeBlockFrom ⟨⟨0⟩⟩ ⟨0⟩ "A" ⟨0⟩), .next]

theorem iteration_of_shrinking_list_emptied :
    let s := ({} : Service).run shrinkingSteps
    Reachable s ∧ s.Legal (Move.steps shrinkingMoves) ∧ s.Never (Step.Inserts ⟨0⟩) (Move.steps shrinkingMoves) ∧
    s.KeptUntilGiven { storage := ⟨0⟩ } (s.ledger.listed ⟨0⟩) shrinkingMoves ∧
    s.ledger.listed ⟨0⟩ = [⟨2⟩, ⟨1⟩, ⟨0⟩] ∧ (s.run (Move.steps shrinkingMoves)).ledger.listed ⟨0⟩ = [] ∧
    ∃ pulls last, s.iterate Cursor.locate { storage := ⟨0⟩ } shrinkingMoves = .ok (pulls, last) ∧
      Answered pulls [(⟨0⟩, ⟨2⟩), (⟨0⟩, ⟨1⟩), (⟨0⟩, ⟨0⟩)] := by
  intro s
  have h : Reachable s := (Reachable.start 0).run (by decide +kernel)
  have hmoves : s.Legal (Move.steps shrinkingMoves) := by decide +kernel
  have hv : s.Never (Step.Inserts ⟨0⟩) (Move.steps shrinkingMoves) := by decide +kernel
  have hkept : s.KeptUntilGiven { storage := ⟨0⟩ } (s.ledger.listed ⟨0⟩) shrinkingMoves := by decide +kernel
  have hlisted : s.ledger.listed ⟨0⟩ = [⟨2⟩, ⟨1⟩, ⟨0⟩] := by decide +kernel
  obtain ⟨pulls, last, hpulls, -, -, hall⟩ := iteration_of_shrinking_list h ⟨0⟩ hmoves hv
  have hanswers := (hall hkept).1
  rw [hlisted] at hanswers
  exact ⟨h, hmoves, hv, hkept, hlisted, by decide +kernel, pulls, last, hpulls, hanswers⟩

end DatanodeLedger
