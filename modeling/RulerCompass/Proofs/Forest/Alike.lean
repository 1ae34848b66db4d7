import RulerCompass.Proofs.Forest.Operations

/-!
# Forests that look alike

Two forests look alike when they hold the same relations in the same order, with the same tags and
the same roots; only the ways to the roots may differ.  A question leaves a forest looking alike, an
operation on forests that look alike leaves them so, and `members_fst` and `connected_fst` give the
answers in terms of what is alike.
-/

namespace RulerCompass.Forest

variable {f g : Forest} {k : String}

/-- What a node shows besides its parent. -/
def entry (n : Node) : Relation × Option Int := (n.relation, n.tag)

/-- The same relations in the same order, with the same tags and the same roots. -/
structure Alike (f g : Forest) : Prop where
  entries : f.map entry = g.map entry
  root : ∀ k, f.root k = g.root k

namespace Alike

theorem refl (f : Forest) : Alike f f := ⟨rfl, fun _ => rfl⟩

theorem symm (h : Alike f g) : Alike g f := ⟨h.entries.symm, fun k => (h.root k).symm⟩

theorem trans {e : Forest} (h : Alike e f) (h' : Alike f g) : Alike e g :=
  ⟨h.entries.trans h'.entries, fun k => (h.root k).trans (h'.root k)⟩

theorem relations_eq (h : Alike f g) : f.map Node.relation = g.map Node.relation := by
  have := congrArg (List.map Prod.fst) h.entries
  rwa [List.map_map, List.map_map] at this

theorem keys_eq (h : Alike f g) : f.keys = g.keys := by
  have := congrArg (List.map Relation.key) h.relations_eq
  rwa [List.map_map, List.map_map] at this

theorem holds_iff (h : Alike f g) : f.Holds k ↔ g.Holds k := by
  rw [Holds, Holds, h.keys_eq]

theorem entry_eq (h : Alike f g) (k : String) : (f.node? k).map entry = (g.node? k).map entry := by
  have hfind : ∀ f : Forest, (f.node? k).map entry = (f.map entry).find? (·.1.key = k) := fun f => by
    rw [List.find?_map]
    rfl
  rw [hfind, hfind, h.entries]

theorem relation_eq (h : Alike f g) (k : String) :
    (f.node? k).map Node.relation = (g.node? k).map Node.relation := by
  have := congrArg (Option.map Prod.fst) (h.entry_eq k)
  rwa [Option.map_map, Option.map_map] at this

theorem tag_eq (h : Alike f g) (k : String) :
    (f.node? k).bind Node.tag = (g.node? k).bind Node.tag := by
  have := congrArg (fun e => e.bind Prod.snd) (h.entry_eq k)
  simp only [Option.bind_map] at this
  exact this

end Alike

/-! ### Questions leave a forest looking alike -/

theorem entries_map {h : Node → Node} (he : ∀ n, entry (h n) = entry n) :
    (List.map h f).map entry = f.map entry := by
  rw [List.map_map]
  exact List.map_congr_left fun n _ => he n

theorem compress_alike (hf : f.WellFormed) (j : String) : Alike (f.compress j) f where
  entries := entries_map fun n => by split <;> rfl
  root := root_compress hf j

theorem connected_snd (hf : f.WellFormed) (left right : String) :
    (f.connected left right).2.WellFormed ∧ Alike (f.connected left right).2 f := by
  rw [connected]
  split
  · exact ⟨hf, .refl f⟩
  · split
    · have hl := hf.compress left
      exact ⟨hl.compress right, (compress_alike hl right).trans (compress_alike hf left)⟩
    · exact ⟨hf, .refl f⟩

/-! ### Entering and joining keep forests alike -/

theorem enter_alike (hf : f.WellFormed) (hg : g.WellFormed) (h : Alike f g) (r : Relation) :
    Alike (f.enter r) (g.enter r) where
  entries := by
    rw [enter, enter]
    by_cases hr : f.Holds r.key
    · rw [if_pos hr, if_pos (h.holds_iff.mp hr), h.entries]
    · rw [if_neg hr, if_neg (hr ∘ h.holds_iff.mpr), List.map_append, List.map_append, h.entries]
  root k := by rw [root_enter hf, root_enter hg, h.root]

/-- Attaching changes what is shown by the keys alone. -/
theorem entries_attach (upper lower : String) (tag : Int) :
    (f.attach upper lower tag).map entry = (f.map entry).map fun e =>
      if e.1.key = lower then (e.1, none) else if e.1.key = upper then (e.1, some tag) else e := by
  rw [attach, List.map_map, List.map_map]
  refine List.map_congr_left fun n _ => ?_
  show entry (if n.key = lower then _ else if n.key = upper then _ else n) =
    if n.key = lower then _ else if n.key = upper then _ else _
  split
  · rfl
  · split <;> rfl

theorem union_alike (hf : f.WellFormed) (hg : g.WellFormed) (h : Alike f g) {left right : String}
    (hl : f.Holds left) (hr : f.Holds right) (tag : Int) :
    Alike (f.union left right tag) (g.union left right tag) where
  entries := by
    have hc : ∀ {f : Forest}, f.WellFormed →
        ((f.compress left).compress right).map entry = f.map entry := fun hf =>
      ((compress_alike (hf.compress left) right).trans (compress_alike hf left)).entries
    -- Both forests join the same two roots, and compressing changes no entry.
    rw [union_eq hf, union_eq hg, keptRoot, lostRoot, h.root, h.root]
    split
    · rw [hc hf, hc hg, h.entries]
    · rw [entries_attach, entries_attach, hc hf, hc hg, h.entries]
      rfl
  root k := by
    rw [(union_spec hf hl hr tag).2, (union_spec hg (h.holds_iff.mp hl) (h.holds_iff.mp hr) tag).2,
      mergedRoot, mergedRoot, h.root, h.root, h.root]

/-! ### Members of a class -/

/-- The members found among some keys, with the forest left behind. -/
theorem membersAmong_spec (hf : f.WellFormed) (root : String) (keys : List String) :
    (membersAmong root f keys).1 =
        (keys.filter fun k => f.root k = root).filterMap (fun k => (f.node? k).map Node.relation) ∧
      (membersAmong root f keys).2.WellFormed ∧ Alike (membersAmong root f keys).2 f := by
  induction keys generalizing f with
  | nil => exact ⟨rfl, hf, .refl f⟩
  | cons k rest ih =>
    obtain ⟨h1, h2, h3⟩ := ih (hf.compress k)
    -- Each query compresses a path, and the rest is asked of a forest alike.
    have hc := compress_alike hf k
    refine ⟨?_, h2, h3.trans hc⟩
    simp only [hc.root, hc.relation_eq] at h1
    have hk := (h3.trans hc).relation_eq k
    show (if f.root k = root then
        ((membersAmong root (f.compress k) rest).2.node? k).toList.map Node.relation else []) ++
        (membersAmong root (f.compress k) rest).1 = _
    rw [h1]
    by_cases hroot : f.root k = root
    · rw [if_pos hroot, List.filter_cons_of_pos (by simpa using hroot), List.filterMap_cons, ← hk]
      cases (membersAmong root (f.compress k) rest).2.node? k <;> rfl
    · rw [if_neg hroot, List.filter_cons_of_neg (by simpa using hroot), List.nil_append]

/-- The class of a key that has been entered, in the order of entering. -/
theorem members_fst (hf : f.WellFormed) (key : String) :
    (f.members key).1 =
      if f.Holds key then (f.filter fun n => f.root n.key = f.root key).map Node.relation
      else [] := by
  rw [members]
  split
  · -- The queries run through the keys of the compressed forest, which are those of this one.
    have hc := compress_alike hf key
    simp only [find, (membersAmong_spec (hf.compress key) _ _).1, hc.root, hc.relation_eq, hc.keys_eq]
    rw [keys, List.filter_map, List.filterMap_map, ← List.filterMap_eq_map]
    refine List.filterMap_congr fun n hn => ?_
    have hn := node?_key_of_mem hf.nodup (List.mem_of_mem_filter hn)
    rw [Function.comp_apply, hn]
    rfl
  · rfl

theorem members_snd (hf : f.WellFormed) (key : String) :
    (f.members key).2.WellFormed ∧ Alike (f.members key).2 f := by
  rw [members]
  split
  · obtain ⟨-, hw, ha⟩ :=
      membersAmong_spec (hf.compress key) (f.root key) (f.compress key).keys
    exact ⟨hw, ha.trans (compress_alike hf key)⟩
  · exact ⟨hf, .refl f⟩

/-- The same class is listed in forests that look alike. -/
theorem Alike.members_eq (hf : f.WellFormed) (hg : g.WellFormed) (h : Alike f g) (key : String) :
    (f.members key).1 = (g.members key).1 := by
  have hfilter : ∀ f : Forest, (f.filter fun n => f.root n.key = f.root key).map Node.relation =
      (f.map Node.relation).filter fun r => f.root r.key = f.root key := fun f => by
    rw [List.filter_map]
    rfl
  rw [members_fst hf, members_fst hg, hfilter, hfilter, h.relations_eq]
  simp only [h.root, h.holds_iff]

end RulerCompass.Forest
