import RulerCompass.Proofs.Ledger.Batch
import RulerCompass.Proofs.Ledger.Copies
import RulerCompass.Proofs.Meets
import RulerCompass.Session

/-!
# Going back in a session

A session goes on by proving, drawing and asking, takes snapshots on the way and goes back to them.  The
ledger that goes on from a snapshot is built anew from the facts, and these facts may come from a ledger
that was built anew itself.  A course keeps the very sessions of which snapshots were taken beside the
history, so that what is restored can be compared with what was there.
-/

namespace RulerCompass

variable {K : Type}

/-! ### Cutting a history -/

/-- A way to go back. -/
inductive Return where
  | undo
  | rewind (step : Int)

namespace History

variable {h : History K}

theorem take_max_one_ne_nil (hh : h ≠ []) (count : Nat) : h.take (max 1 count) ≠ [] := by
  intro hnil
  rcases List.take_eq_nil_iff.mp hnil with hzero | hempty
  · omega
  · exact hh hempty

theorem exists_cut (hh : h ≠ []) (count : Nat) (fault : Fault) :
    ∃ t, (h.take (max 1 count)).getLast? = some t ∧
      h.cut count fault = .ok (h.take (max 1 count), t) := by
  have hlast := List.getLast?_eq_some_getLast (take_max_one_ne_nil hh count)
  exact ⟨_, hlast, by simp only [cut, hlast]⟩

end History

namespace Session

/-- Goes back and gives the snapshot that it goes on from. -/
def goBack (s : Session K) : Return → Except Fault (Snapshot K × Session K)
  | .undo => s.undo
  | .rewind step => s.rewind step

/-- To go back is to go on from the last of the snapshots that are left. -/
theorem exists_goBack {s : Session K} (hs : s.history ≠ []) (b : Return) :
    ∃ n t, 1 ≤ n ∧ (s.history.take n).getLast? = some t ∧
      s.goBack b = .ok (t, s.restore (s.history.take n) t) := by
  -- Both ways back keep some snapshots and at least one.
  cases b with
  | undo =>
    obtain ⟨t, hlast, hcut⟩ := History.exists_cut hs (s.history.length - 1) .nothingToUndo
    refine ⟨_, t, Nat.le_max_left 1 _, hlast, ?_⟩
    rw [goBack, undo, History.undo, hcut]
    rfl
  | rewind step =>
    obtain ⟨t, hlast, hcut⟩ := History.exists_cut hs (step + 1).toNat .nothingToRewind
    refine ⟨_, t, Nat.le_max_left 1 _, hlast, ?_⟩
    rw [goBack, rewind, History.rewind, hcut]
    rfl

end Session

/-! ### Deeds -/

/-- Something done in a session.  The scene and the hidden constructions may change in any way, the facts
by proving only. -/
inductive Deed (K : Type) where
  | draw (scene : Scene K) (ghosts : List (GhostLayer K))
  | prove (as : List Assertion) (atStep : Int)
  | ask (r t : Relation)
  | snapshot (stepIndex : Int)
  | back (b : Return)

namespace Session

/-- The session after a deed. -/
def perform (s : Session K) : Deed K → Except Fault (Session K)
  | .draw scene ghosts => .ok { s with scene := scene, ghosts := ghosts }
  | .prove as atStep => .ok (s.prove as atStep).2
  | .ask r t => .ok (s.ask r t).2
  | .snapshot stepIndex => .ok (s.snapshot stepIndex)
  | .back b => (s.goBack b).map Prod.snd

/-- The ledger comes about by calls and holds the facts that the session has collected. -/
structure Balanced (s : Session K) : Prop where
  reached : s.ledger.Reached
  facts_eq : s.ledger.facts = s.facts

namespace Balanced

variable {s : Session K}

theorem prove (h : s.Balanced) (as : List Assertion) (atStep : Int) :
    (s.prove as atStep).2.Balanced where
  reached := h.reached.recordAll as atStep
  facts_eq := by
    show (s.ledger.recordAll as atStep).2.facts = s.facts ++ (s.ledger.recordAll as atStep).1
    rw [Ledger.recordAll_facts, h.facts_eq]

theorem ask (h : s.Balanced) (r t : Relation) : (s.ask r t).2.Balanced where
  reached := h.reached.after [.equal r t]
  facts_eq := (Ledger.equal_snd h.reached.coherent.wellFormed r t).2.facts_eq.trans h.facts_eq

end Balanced

end Session

/-! ### Moments -/

/-- A session of which a snapshot is taken before a step. -/
structure Moment (K : Type) where
  session : Session K
  stepIndex : Int

namespace Moment

/-- The snapshot that is taken. -/
def snapshot (m : Moment K) : Snapshot K :=
  ⟨m.session.scene, m.session.facts, m.session.ghosts, m.stepIndex⟩

variable {m : Moment K}

/-- **The ledger of a snapshot looks like that of the session it was taken of.** -/
theorem ledger_alike (h : m.session.Balanced) :
    m.snapshot.ledger.Alike m.session.ledger := by
  show (Ledger.ofFacts m.session.facts).Alike m.session.ledger
  rw [← h.facts_eq]
  exact h.reached.ofFacts_alike

theorem balanced_restore (h : m.session.Balanced) (s : Session K) (kept : History K) :
    (s.restore kept m.snapshot).Balanced where
  reached := Ledger.reached_ofFacts _
  facts_eq := (ledger_alike h).facts_eq.trans h.facts_eq

end Moment

/-! ### Courses -/

/-- A session on its way, with the sessions whose snapshots are on its history, in the same order. -/
structure Course (K : Type) where
  session : Session K
  moments : List (Moment K)

namespace Course

/-- The moments after a deed that has led to a session: snapshots are of the present session, and
moments are dropped with their snapshots. -/
def momentsAfter (c : Course K) (s : Session K) : Deed K → List (Moment K)
  | .snapshot stepIndex => c.moments ++ [⟨c.session, stepIndex⟩]
  | .back _ => c.moments.take s.history.length
  | _ => c.moments

/-- The course after a deed. -/
def perform (c : Course K) (d : Deed K) : Except Fault (Course K) :=
  (c.session.perform d).map fun s => ⟨s, c.momentsAfter s d⟩

/-- The course after some deeds. -/
def performAll (c : Course K) (deeds : List (Deed K)) : Except Fault (Course K) :=
  deeds.foldlM perform c

/-- The start: nothing is proved, and the history holds a snapshot of that. -/
def start (style : Style) (scene : Scene K) (ghosts : List (GhostLayer K)) (stepIndex : Int) :
    Course K :=
  let s : Session K := { style := style, scene := scene, ghosts := ghosts }
  ⟨s.snapshot stepIndex, [⟨s, stepIndex⟩]⟩

variable {c u c' : Course K} {first m : Moment K}

theorem performAll_concat {deeds : List (Deed K)} {d : Deed K} (hu : c.performAll deeds = .ok u)
    (hd : u.perform d = .ok c') : c.performAll (deeds ++ [d]) = .ok c' := by
  rw [performAll] at hu ⊢
  rw [List.foldlM_append, hu]
  show [d].foldlM perform u = .ok c'
  rw [List.foldlM_cons, hd]
  rfl

/-- The moments are kept beside the session and have no influence on it. -/
theorem session_performAll (c : Course K) (deeds : List (Deed K)) :
    (c.performAll deeds).map session = deeds.foldlM Session.perform c.session := by
  induction deeds generalizing c with
  | nil => rfl
  | cons d deeds ih =>
    rw [performAll, List.foldlM_cons, List.foldlM_cons, perform]
    cases c.session.perform d with
    | error fault => rfl
    | ok s => exact ih ⟨s, c.momentsAfter s d⟩

/-- The history holds the snapshots of the moments, the first of which never changes, and no ledger has
lost or gained a fact. -/
structure Kept (c : Course K) (first : Moment K) : Prop where
  history : c.session.history = c.moments.map Moment.snapshot
  head : c.moments.head? = some first
  balanced : c.session.Balanced
  momentsBalanced : ∀ m ∈ c.moments, m.session.Balanced

theorem kept_start (style : Style) (scene : Scene K) (ghosts : List (GhostLayer K)) (stepIndex : Int) :
    (start style scene ghosts stepIndex).Kept
      ⟨{ style := style, scene := scene, ghosts := ghosts }, stepIndex⟩ where
  history := rfl
  head := rfl
  balanced := ⟨Ledger.reached_empty, rfl⟩
  momentsBalanced := by
    intro m hm
    obtain rfl := List.mem_singleton.mp hm
    exact ⟨Ledger.reached_empty, rfl⟩

/-- **To go back is to go on from the last moment that is left.** -/
theorem Kept.exists_back (h : c.Kept first) (b : Return) :
    ∃ c' m kept, c.perform (.back b) = .ok c' ∧ c'.Kept first ∧ c'.moments.getLast? = some m ∧
      c'.session = c.session.restore kept m.snapshot := by
  -- The history has its first snapshot still, so there is something to go back to.
  have hne : c.session.history ≠ [] := by
    rw [h.history]
    intro hnil
    have hhead := h.head
    rw [List.map_eq_nil_iff.mp hnil] at hhead
    cases hhead
  obtain ⟨n, t, hn, hlast, hback⟩ := Session.exists_goBack hne b
  have hkept : c.session.history.take n = (c.moments.take n).map Moment.snapshot := by
    rw [h.history, List.map_take]
  rw [hkept, List.getLast?_map, Option.map_eq_some_iff] at hlast
  obtain ⟨m, hm, rfl⟩ := hlast
  have hmoments : c.moments.take (c.session.history.take n).length = c.moments.take n := by
    rw [hkept, List.length_map, List.length_take]
    simp [List.take_eq_take_iff]
  -- What was balanced at the moments that stay is so still.
  have hleft : ∀ m ∈ c.moments.take n, m.session.Balanced := fun m hm =>
    h.momentsBalanced m (List.mem_of_mem_take hm)
  refine ⟨_, m, _, by rw [perform, Session.perform, hback]; rfl, ⟨?_, ?_, ?_, ?_⟩, ?_, rfl⟩
  · show c.session.history.take n = List.map _ (c.moments.take (c.session.history.take n).length)
    rw [hmoments, hkept]
  · show (c.moments.take (c.session.history.take n).length).head? = some first
    rw [hmoments, List.head?_take, if_neg (by omega), h.head]
  · exact Moment.balanced_restore (hleft m (List.mem_of_getLast? hm)) c.session _
  · show ∀ m ∈ c.moments.take (c.session.history.take n).length, m.session.Balanced
    rw [hmoments]
    exact hleft
  · show (c.moments.take (c.session.history.take n).length).getLast? = some m
    rw [hmoments, hm]

/-- **Each deed has a result** and leaves history and moments in step. -/
theorem Kept.exists_perform (h : c.Kept first) (d : Deed K) :
    ∃ c', c.perform d = .ok c' ∧ c'.Kept first := by
  cases d with
  | draw scene ghosts =>
    exact ⟨_, rfl, h.history, h.head, ⟨h.balanced.reached, h.balanced.facts_eq⟩, h.momentsBalanced⟩
  | prove as atStep =>
    exact ⟨_, rfl, h.history, h.head, h.balanced.prove as atStep, h.momentsBalanced⟩
  | ask r t => exact ⟨_, rfl, h.history, h.head, h.balanced.ask r t, h.momentsBalanced⟩
  | snapshot stepIndex =>
    -- The new moment stands for the session as it is, which is balanced.
    refine ⟨_, rfl, ⟨?_, ?_, ⟨h.balanced.reached, h.balanced.facts_eq⟩, ?_⟩⟩
    · show c.session.history ++ [_] = List.map _ (c.moments ++ [⟨c.session, stepIndex⟩])
      rw [List.map_append, h.history]
      rfl
    · show (c.moments ++ [_]).head? = some first
      rw [List.head?_append, h.head]
      rfl
    · intro m hm
      rcases List.mem_append.mp hm with hm | hm
      · exact h.momentsBalanced m hm
      · obtain rfl := List.mem_singleton.mp hm
        exact h.balanced
  | back b =>
    obtain ⟨c', -, -, hperform, hkept, -⟩ := h.exists_back b
    exact ⟨c', hperform, hkept⟩

theorem Kept.exists_performAll (h : c.Kept first) (deeds : List (Deed K)) :
    ∃ c', c.performAll deeds = .ok c' ∧ c'.Kept first := by
  induction deeds generalizing c with
  | nil => exact ⟨c, rfl, h⟩
  | cons d deeds ih =>
    obtain ⟨u, hu, hkept⟩ := h.exists_perform d
    obtain ⟨c', hc', hkept'⟩ := ih hkept
    refine ⟨c', ?_, hkept'⟩
    rw [performAll, List.foldlM_cons, hu]
    exact hc'

end Course

/-! ### What is restored -/

/-- A ledger that goes on from the last moment has the facts of that moment and looks like its ledger. -/
theorem Course.Kept.ledger_alike {c : Course K} {first m : Moment K} (h : c.Kept first)
    (hlast : c.moments.getLast? = some m) (hledger : c.session.ledger = m.snapshot.ledger) :
    m.session.Balanced ∧ c.session.ledger.Alike m.session.ledger := by
  have hm : m.session.Balanced := h.momentsBalanced m (List.mem_of_getLast? hlast)
  refine ⟨hm, ?_⟩
  rw [hledger]
  exact Moment.ledger_alike hm

/-- **Going back restores the proof exactly.**  From a start at which nothing is proved, any deeds and
then an undo or a rewind lead to a session that goes on from the last snapshot that is left: it has the
scene, facts and hidden constructions of the snapshot.  Its ledger has exactly the facts of the snapshot
and numbers the next one after them, and it gives the replies that the ledger gave of which the
snapshot was taken, to every question of equality and to any calls.  The first snapshot stays in its
place. -/
theorem Session.back_restores_proof (style : Style) (scene : Scene K)
    (ghosts : List (GhostLayer K)) (stepIndex : Int) (deeds : List (Deed K)) (b : Return) :
    ∃ (c : Course K) (m : Moment K),
      (Course.start style scene ghosts stepIndex).performAll (deeds ++ [Deed.back b]) = .ok c ∧
      (deeds ++ [Deed.back b]).foldlM perform (Course.start style scene ghosts stepIndex).session =
        .ok c.session ∧
      c.moments.getLast? = some m ∧ c.session.history.getLast? = some m.snapshot ∧
      (⟨c.session, m.stepIndex⟩ : Moment K).snapshot = m.snapshot ∧
      m.session.ledger.facts = m.snapshot.facts ∧
      c.session.ledger.facts = m.snapshot.facts ∧
      c.session.ledger.nextId = m.snapshot.facts.length + 1 ∧
      (∀ r t, (c.session.ledger.equal r t).1 = (m.session.ledger.equal r t).1) ∧
      (∀ calls, c.session.ledger.answers calls = m.session.ledger.answers calls) ∧
      c.session.history.head? = some ⟨scene, [], ghosts, stepIndex⟩ := by
  obtain ⟨u, hu, hkept⟩ := (Course.kept_start style scene ghosts stepIndex).exists_performAll deeds
  obtain ⟨c, m, kept, hback, hc, hlast, hrestored⟩ := hkept.exists_back b
  have hperformed := Course.performAll_concat hu hback
  have hsession := Course.session_performAll (Course.start style scene ghosts stepIndex)
    (deeds ++ [Deed.back b])
  rw [hperformed] at hsession
  -- The ledger is built again from the facts of the snapshot, which are those of the moment.
  have hledger : c.session.ledger = m.snapshot.ledger := by
    rw [hrestored]
    rfl
  obtain ⟨hm, halike⟩ := hc.ledger_alike hlast hledger
  have hfacts : c.session.ledger.facts = m.snapshot.facts := halike.facts_eq.trans hm.facts_eq
  have hw := hc.balanced.reached.coherent.wellFormed
  have hw' := hm.reached.coherent.wellFormed
  refine ⟨c, m, hperformed, hsession.symm, hlast, ?_, ?_, hm.facts_eq, hfacts, ?_, fun r t => ?_, ?_,
    ?_⟩
  · rw [hc.history, List.getLast?_map, hlast]
    rfl
  · rw [hrestored]
    rfl
  · rw [hc.balanced.reached.coherent.nextId_eq, hfacts]
  · rw [Ledger.equal_fst hw, Ledger.equal_fst hw', halike.forest.root, halike.forest.root]
  · exact Ledger.answers_eq hw hw' halike
  · rw [hc.history, List.head?_map, hc.head]
    rfl

end RulerCompass
