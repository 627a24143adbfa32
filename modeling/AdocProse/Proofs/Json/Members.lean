import AdocProse.Proofs.Json.Record

/-! Members of a record may stand in any order: reading them one after the other is the same as reading
the fields one after the other, each from the member that has its name. -/

namespace AdocProse.Json

variable {α σ ρ : Type} {room : Nat}

def named (name : String) (ms : List (StringLit × α)) : List α :=
  (ms.filter fun m => m.1.text = .ok name).map (·.2)

/-- What a field is given by the values of its members, of which there is at most one. -/
def Given {β : Type} (reads : α → β → Prop) (vs : List α) : Option β → Prop
  | none => vs = []
  | some b => ∃ a, vs = [a] ∧ reads a b

section

variable {name : String} {m : StringLit × α} {ms : List (StringLit × α)}

lemma named_cons_self (h : m.1.text = .ok name) : named name (m :: ms) = m.2 :: named name ms := by
  rw [named, List.filter_cons_of_pos (by simpa using h), List.map_cons, named]

lemma named_cons_other (h : m.1.text ≠ .ok name) : named name (m :: ms) = named name ms := by
  rw [named, List.filter_cons_of_neg (by simpa using h), named]

lemma Given.imp {β : Type} {reads reads' : α → β → Prop} {vs : List α} {o : Option β}
    (h : Given reads vs o) (himp : ∀ a ∈ vs, ∀ b, reads a b → reads' a b) : Given reads' vs o := by
  cases o with
  | none => exact h
  | some b =>
    obtain ⟨a, rfl, ha⟩ := h
    exact ⟨a, rfl, himp a List.mem_cons_self b ha⟩

lemma Given.congr {β : Type} {reads reads' : α → β → Prop} (h : ∀ a b, reads a b ↔ reads' a b)
    {vs : List α} {o : Option β} : Given reads vs o ↔ Given reads' vs o :=
  ⟨fun hgiven => hgiven.imp fun a _ b => (h a b).mp, fun hgiven => hgiven.imp fun a _ b => (h a b).mpr⟩

lemma Given.perm {β : Type} {reads : α → β → Prop} {vs ws : List α} (h : vs.Perm ws) {o : Option β} :
    Given reads vs o ↔ Given reads ws o := by
  cases o with
  | none => exact ⟨fun hvs => (hvs ▸ h).nil_eq.symm, fun hws => (hws ▸ h).eq_nil⟩
  | some b =>
    refine exists_congr fun a => and_congr ⟨?_, ?_⟩ Iff.rfl
    · rintro rfl
      exact (List.singleton_perm.mp h).symm
    · rintro rfl
      exact List.perm_singleton.mp h

lemma Given.replace {β : Type} {reads : α → β → Prop} {a a' : α} (h : ∀ b, reads a b ↔ reads a' b)
    (vs ws : List α) {o : Option β} : Given reads (vs ++ a :: ws) o ↔ Given reads (vs ++ a' :: ws) o := by
  cases o with
  | none => simp [Given]
  | some b => simp [Given, List.append_eq_singleton_iff, h]

lemma Given.map {β γ : Type} {g : α → β} {reads : β → γ → Prop} {vs : List α} {o : Option γ} :
    Given reads (vs.map g) o ↔ Given (fun a => reads (g a)) vs o := by
  cases o <;> simp [Given, List.map_eq_singleton_iff]

end

namespace Reading

lemma bind_eq_ok {α β : Type} {r : Reading α} {f : α → Reading β} {b : β} :
    (r >>= f) room = .ok b ↔ ∃ a, r room = .ok a ∧ f a room = .ok b := by
  change (r room >>= fun a => f a room) = _ ↔ _
  cases r room <;> simp [bind, Except.bind]

lemma map_eq_ok {α β : Type} {r : Reading α} {f : α → β} {b : β} :
    (f <$> r) room = .ok b ↔ ∃ a, r room = .ok a ∧ b = f a := by
  change (f <$> r room) = _ ↔ _
  cases r room <;> simp [Functor.map, Except.map, eq_comm]

lemma inside_eq_ok {α : Type} {r : Reading α} {a : α} :
    inside r room = .ok a ↔ ∃ n, room = n + 1 ∧ r n = .ok a := by
  cases room <;> simp [inside]

lemma sequence_eq_ok {α : Type} {rs : List (Reading α)} {as : List α} :
    sequence rs none room = .ok as ↔ List.Forall₂ (fun r a => r room = .ok a) rs as := by
  refine ⟨fun h => ?_, sequence_ok⟩
  induction rs generalizing as with
  | nil =>
    cases h
    exact .nil
  | cons r rs ih =>
    rw [sequence, bind_eq_ok] at h
    obtain ⟨a, ha, h⟩ := h
    rw [bind_eq_ok] at h
    obtain ⟨as, has, h⟩ := h
    cases h
    exact .cons ha (ih has)

lemma mismatch_ne_ok {α : Type} (v : Value) (expected : String) (a : α) :
    (mismatch v expected : Reading α) room ≠ .ok a := by
  rw [mismatch]
  cases v.found <;> simp [bind, Except.bind, throw, throwThe, MonadExceptOf.throw]

lemma check_eq_ok {ending : Option Fault} : check ending room = .ok () ↔ ending = none := by
  cases ending <;> simp [check, fail]

lemma sequence_whole {α : Type} {rs : List (Reading α)} {ending : Option Fault} {as : List α}
    (h : sequence rs ending room = .ok as) : ending = none := by
  induction rs generalizing as with
  | nil =>
    rw [sequence, bind_eq_ok] at h
    exact check_eq_ok.mp h.choose_spec.1
  | cons r rs ih =>
    rw [sequence, bind_eq_ok] at h
    obtain ⟨a, -, h⟩ := h
    rw [bind_eq_ok] at h
    exact ih h.choose_spec.1

lemma string_eq_ok {v : Value} {s : String} :
    string v room = .ok s ↔ ∃ l, v = .string l ∧ l.text = .ok s := by
  cases v <;> simp [string, mismatch_ne_ok]

lemma size_eq_ok {v : Value} {n : Nat} :
    size v room = .ok n ↔ ∃ k, v = .number k ∧ k.toNumber = .ok (.natural n) := by
  cases v with
  | number k =>
    simp only [size, Value.number.injEq, exists_eq_left']
    cases hk : k.toNumber with
    | error f => simp [bind, Except.bind]
    | ok x => cases x <;> simp [bind, Except.bind]
  | null | bool | badNumber | string | array | object | broken => simp [size, mismatch_ne_ok]

lemma list_eq_ok {α : Type} {item : Value → Reading α} {v : Value} {as : List α} :
    list item v room = .ok as ↔ ∃ vs n, v = .array vs none ∧ room = n + 1 ∧
      List.Forall₂ (fun v a => item v n = .ok a) vs as := by
  cases v with
  | array vs ending =>
    simp only [list, inside_eq_ok, Value.array.injEq]
    constructor
    · rintro ⟨n, hroom, h⟩
      obtain rfl := sequence_whole h
      rw [sequence_eq_ok, List.forall₂_map_left_iff] at h
      exact ⟨vs, n, ⟨rfl, rfl⟩, hroom, h⟩
    · rintro ⟨_, n, ⟨rfl, rfl⟩, hroom, h⟩
      rw [← List.forall₂_map_left_iff (f := item) (R := fun r a => r n = .ok a), ← sequence_eq_ok] at h
      exact ⟨n, hroom, h⟩
  | null | bool | number | badNumber | string | object | broken => simp [list, mismatch_ne_ok]

end Reading

lemma map_ok {u : σ → σ} {x : Except Fault σ} {s : σ} (h : u <$> x = .ok s) :
    ∃ t, x = .ok t ∧ s = u t := by
  cases x with
  | error f => cases h
  | ok t =>
    cases h
    exact ⟨t, rfl, rfl⟩

/-- Setting the field to what `a` stands for is the update `u`, which no other field notices. -/
structure Field.Writes (fields : List (Field α σ)) (f : Field α σ) (a : α) (room : Nat) (u : σ → σ) :
    Prop where
  set : ∀ s, f.set a s room = .ok (u s)
  isSet : ∀ s, f.isSet (u s) = true
  isSet_other : ∀ g ∈ fields, g.name ≠ f.name → ∀ s, g.isSet (u s) = g.isSet s
  set_other : ∀ g ∈ fields, g.name ≠ f.name → ∀ b s, g.set b (u s) room = u <$> g.set b s room

lemma Reading.map_return {β : Type} {r : Reading β} {p q : β → σ} {u : σ → σ} (h : ∀ b, p b = u (q b)) :
    (do return p (← r) : Reading σ) room = u <$> (do return q (← r) : Reading σ) room := by
  change (r room >>= fun b => pure (p b)) = u <$> (r room >>= fun b => pure (q b))
  cases r room with
  | error f => rfl
  | ok b => exact congrArg Except.ok (h b)

lemma Field.writes_put {β : Type} {fields : List (Field α σ)} {f : Field α σ} {read : α → Reading β}
    {u : β → σ → σ} (hset : ∀ a s, f.set a s = do return u (← read a) s)
    (hisSet : ∀ b s, f.isSet (u b s) = true)
    (hother : ∀ g ∈ fields, g.name ≠ f.name → ∀ b, (∀ s, g.isSet (u b s) = g.isSet s) ∧
      ∀ a s room, g.set a (u b s) room = u b <$> g.set a s room)
    {a : α} {room : Nat} {s s' : σ} (h : f.set a s room = .ok s') :
    ∃ v, f.Writes fields a room v ∧ s' = v s := by
  rw [hset, Reading.bind_eq_ok] at h
  obtain ⟨b, hb, h⟩ := h
  cases h
  refine ⟨u b, ⟨fun s => ?_, hisSet b, ?_, ?_⟩, rfl⟩
  · rw [hset, Reading.bind_ok hb]
    rfl
  · exact fun g hg hne => (hother g hg hne b).1
  · exact fun g hg hne a s => (hother g hg hne b).2 a s room

namespace Record

/-- The fields have different names, and none depends on another one. -/
structure Separate (r : Record α σ ρ) : Prop where
  names : (r.fields.map (·.name)).Nodup
  writes : ∀ f ∈ r.fields, ∀ a room s s', f.set a s room = .ok s' →
    ∃ u, f.Writes r.fields a room u ∧ s' = u s

/-- The fields are read in their order, and each of them is given at most once. -/
inductive Gathers (ms : List (StringLit × α)) (room : Nat) : List (Field α σ) → σ → σ → Prop
  | nil {s} : Gathers ms room [] s s
  | absent {f fs s s'} (hnone : named f.name ms = []) (hrest : Gathers ms room fs s s') :
    Gathers ms room (f :: fs) s s'
  | given {f fs s s'} (a : α) (t : σ) (hone : named f.name ms = [a]) (hnew : f.isSet s = false)
    (hset : f.set a s room = .ok t) (hrest : Gathers ms room fs t s') : Gathers ms room (f :: fs) s s'

variable {r : Record α σ ρ} {s s' : σ} {m : StringLit × α} {ms : List (StringLit × α)}

lemma field?_some {name : String} {f : Field α σ} (h : r.field? name = some f) :
    f ∈ r.fields ∧ f.name = name := by
  rw [field?] at h
  exact ⟨List.mem_of_find?_eq_some h, by simpa using List.find?_some h⟩

lemma field?_none {name : String} (h : r.field? name = none) {f : Field α σ} (hf : f ∈ r.fields) :
    f.name ≠ name := by
  rw [field?, List.find?_eq_none] at h
  simpa using h f hf

lemma unknown {name : String} (hname : m.1.text = .ok name) (h : r.field? name = none) :
    ∀ f ∈ r.fields, m.1.text ≠ .ok f.name := by
  intro f hf hf'
  rw [hname, Except.ok.injEq] at hf'
  exact field?_none h hf hf'.symm

lemma member_eq_ok : r.member s m room = .ok s' ↔ ∃ name, m.1.text = .ok name ∧
    ((r.field? name = none ∧ r.skip m.2 = none ∧ s' = s) ∨
      ∃ f, r.field? name = some f ∧ f.isSet s = false ∧ f.set m.2 s room = .ok s') := by
  rw [member, Reading.bind_eq_ok]
  refine exists_congr fun name => and_congr Iff.rfl ?_
  cases hfield : r.field? name with
  | none =>
    simp only [Reading.bind_eq_ok, reduceCtorEq, false_and, exists_false, or_false, true_and]
    cases r.skip m.2 <;> simp [Reading.check, Reading.fail, pure, ReaderT.pure, Except.pure, eq_comm]
  | some f =>
    simp only [Option.some.injEq, exists_eq_left', reduceCtorEq, false_and, false_or]
    cases hset : f.isSet s <;> simp [Reading.fail]

namespace Gathers

variable {fs : List (Field α σ)}

lemma of_others (h : ∀ g ∈ fs, m.1.text ≠ .ok g.name) :
    Gathers (m :: ms) room fs s s' ↔ Gathers ms room fs s s' := by
  induction fs generalizing s with
  | nil =>
    constructor <;>
    · rintro ⟨⟩
      exact .nil
  | cons g fs ih =>
    rw [List.forall_mem_cons] at h
    constructor
    · rintro (_ | ⟨hnone, hrest⟩ | ⟨a, t, hone, hnew, hset, hrest⟩)
      · rw [named_cons_other h.1] at hnone
        exact .absent hnone ((ih h.2).mp hrest)
      · rw [named_cons_other h.1] at hone
        exact .given a t hone hnew hset ((ih h.2).mp hrest)
    · rintro (_ | ⟨hnone, hrest⟩ | ⟨a, t, hone, hnew, hset, hrest⟩)
      · rw [← named_cons_other h.1] at hnone
        exact .absent hnone ((ih h.2).mpr hrest)
      · rw [← named_cons_other h.1] at hone
        exact .given a t hone hnew hset ((ih h.2).mpr hrest)

lemma others {f : Field α σ} (hname : m.1.text = .ok f.name) (h : f.name ∉ fs.map (·.name)) :
    ∀ g ∈ fs, m.1.text ≠ .ok g.name := by
  intro g hg hg'
  rw [hname, Except.ok.injEq] at hg'
  exact h (hg' ▸ List.mem_map_of_mem hg)

lemma cons_self {f : Field α σ} {u : σ → σ} (hu : f.Writes r.fields m.2 room u)
    (hname : m.1.text = .ok f.name) (hothers : f.name ∉ fs.map (·.name)) (hnew : f.isSet s = false) :
    Gathers ms room (f :: fs) (u s) s' ↔ Gathers (m :: ms) room (f :: fs) s s' := by
  constructor
  · rintro (_ | ⟨hnone, hrest⟩ | ⟨a, t, hone, hfree, hset, hrest⟩)
    · have hone : named f.name (m :: ms) = [m.2] := by rw [named_cons_self hname, hnone]
      exact .given m.2 (u s) hone hnew (hu.set s) ((of_others (others hname hothers)).mpr hrest)
    · rw [hu.isSet s] at hfree
      cases hfree
  · rintro (_ | ⟨hnone, hrest⟩ | ⟨a, t, hone, hfree, hset, hrest⟩)
    · rw [named_cons_self hname] at hnone
      cases hnone
    · rw [named_cons_self hname] at hone
      obtain ⟨rfl, hnone⟩ := List.cons.inj hone
      rw [hu.set s] at hset
      cases hset
      exact .absent hnone ((of_others (others hname hothers)).mp hrest)

/-- A field that is set at once can as well be set when its turn comes. -/
lemma cons (hsep : r.Separate) {f : Field α σ} {u : σ → σ} (hu : f.Writes r.fields m.2 room u)
    (hname : m.1.text = .ok f.name) (hsub : fs ⊆ r.fields) (hnodup : (fs.map (·.name)).Nodup)
    (hf : f ∈ fs) (hnew : f.isSet s = false) :
    Gathers ms room fs (u s) s' ↔ Gathers (m :: ms) room fs s s' := by
  induction fs generalizing s with
  | nil => cases hf
  | cons g fs ih =>
    rw [List.map_cons, List.nodup_cons] at hnodup
    obtain ⟨hg, hnodup⟩ := hnodup
    rw [List.cons_subset] at hsub
    rcases List.mem_cons.mp hf with rfl | hfs
    · exact cons_self hu hname hg hnew
    · have hother : g.name ≠ f.name := fun h => hg (h ▸ List.mem_map_of_mem hfs)
      have htext : m.1.text ≠ .ok g.name := by
        rw [hname]
        exact fun h => hother (Except.ok.inj h).symm
      -- The field `g` is set first, to the same whether `f` is set already or not.
      have hfree (a : α) {t : σ} (hset : g.set a s room = .ok t) : f.isSet t = false := by
        obtain ⟨v, hv, rfl⟩ := hsep.writes g hsub.1 a room s t hset
        rw [hv.isSet_other f (hsub.2 hfs) (Ne.symm hother), hnew]
      constructor
      · rintro (_ | ⟨hnone, hrest⟩ | ⟨a, t, hone, hnew', hset, hrest⟩)
        · rw [← named_cons_other htext] at hnone
          exact .absent hnone ((ih hsub.2 hnodup hfs hnew).mp hrest)
        · rw [hu.set_other g hsub.1 hother] at hset
          rw [hu.isSet_other g hsub.1 hother] at hnew'
          rw [← named_cons_other htext] at hone
          obtain ⟨t₀, hset₀, rfl⟩ := map_ok hset
          exact .given a t₀ hone hnew' hset₀ ((ih hsub.2 hnodup hfs (hfree a hset₀)).mp hrest)
      · rintro (_ | ⟨hnone, hrest⟩ | ⟨a, t, hone, hnew', hset, hrest⟩)
        · rw [named_cons_other htext] at hnone
          exact .absent hnone ((ih hsub.2 hnodup hfs hnew).mpr hrest)
        · rw [named_cons_other htext] at hone
          rw [← hu.isSet_other g hsub.1 hother] at hnew'
          have hset' : g.set a (u s) room = .ok (u t) := by
            rw [hu.set_other g hsub.1 hother, hset]
            rfl
          exact .given a (u t) hone hnew' hset' ((ih hsub.2 hnodup hfs (hfree a hset)).mpr hrest)

lemma first (hsep : r.Separate) {f : Field α σ} (hname : m.1.text = .ok f.name) (hsub : fs ⊆ r.fields)
    (hnodup : (fs.map (·.name)).Nodup) (hf : f ∈ fs) (h : Gathers (m :: ms) room fs s s') :
    f.isSet s = false ∧ ∃ t, f.set m.2 s room = .ok t := by
  induction fs generalizing s with
  | nil => cases hf
  | cons g fs ih =>
    rw [List.map_cons, List.nodup_cons] at hnodup
    obtain ⟨hg, hnodup⟩ := hnodup
    rw [List.cons_subset] at hsub
    rcases List.mem_cons.mp hf with rfl | hfs
    · rcases h with _ | ⟨hnone, hrest⟩ | ⟨a, t, hone, hnew, hset, hrest⟩
      · rw [named_cons_self hname] at hnone
        cases hnone
      · rw [named_cons_self hname] at hone
        obtain ⟨rfl, -⟩ := List.cons.inj hone
        exact ⟨hnew, t, hset⟩
    · have hother : f.name ≠ g.name := fun h => hg (h ▸ List.mem_map_of_mem hfs)
      rcases h with _ | ⟨hnone, hrest⟩ | ⟨a, t, hone, hnew, hset, hrest⟩
      · exact ih hsub.2 hnodup hfs hrest
      · obtain ⟨v, hv, rfl⟩ := hsep.writes g hsub.1 a room s t hset
        obtain ⟨hfree, t, hset⟩ := ih hsub.2 hnodup hfs hrest
        rw [hv.isSet_other f (hsub.2 hfs) hother] at hfree
        rw [hv.set_other f (hsub.2 hfs) hother] at hset
        obtain ⟨t₀, hset₀, -⟩ := map_ok hset
        exact ⟨hfree, t₀, hset₀⟩

lemma finished : Gathers ms room [] s s' ↔ s' = s := by
  constructor
  · rintro ⟨⟩
    rfl
  · rintro rfl
    exact .nil

lemma nil_iff : Gathers ([] : List (StringLit × α)) room fs s s' ↔ s' = s := by
  induction fs generalizing s with
  | nil => exact finished
  | cons f fs ih =>
    constructor
    · rintro (_ | ⟨hnone, hrest⟩ | ⟨a, t, hone, hnew, hset, hrest⟩)
      · exact ih.mp hrest
      · cases hone
    · intro h
      exact .absent rfl (ih.mpr h)

end Gathers

lemma Gathers.cons_iff {β : Type} {f : Field α σ} {fs : List (Field α σ)} {read : α → Reading β}
    {u : Option β → σ → σ} (hset : ∀ a s, f.set a s = do return u (some (← read a)) s)
    (hnone : u none s = s) (hnew : f.isSet s = false) : Gathers ms room (f :: fs) s s' ↔
      ∃ o, Given (fun a b => read a room = .ok b) (named f.name ms) o ∧ Gathers ms room fs (u o s) s' := by
  constructor
  · rintro (_ | ⟨habsent, hrest⟩ | ⟨a, t, hone, -, ht, hrest⟩)
    · exact ⟨none, habsent, by rwa [hnone]⟩
    · rw [hset, Reading.bind_eq_ok] at ht
      obtain ⟨b, hb, ht⟩ := ht
      cases ht
      exact ⟨some b, ⟨a, hone, hb⟩, hrest⟩
  · rintro ⟨_ | b, hgiven, hrest⟩
    · rw [hnone] at hrest
      exact .absent hgiven hrest
    · obtain ⟨a, hone, hb⟩ := hgiven
      refine .given a (u (some b) s) hone hnew ?_ hrest
      rw [hset, Reading.bind_ok hb]
      rfl

theorem members_ok (hsep : r.Separate) : r.members s ms room = .ok s' ↔
    (∀ m ∈ ms, ∃ name, m.1.text = .ok name ∧ (r.field? name = none → r.skip m.2 = none)) ∧
      Gathers ms room r.fields s s' := by
  induction ms generalizing s with
  | nil => simp [members, pure, ReaderT.pure, Except.pure, Gathers.nil_iff, eq_comm]
  | cons m ms ih =>
    rw [members, Reading.bind_eq_ok, List.forall_mem_cons]
    simp only [ih, member_eq_ok]
    constructor
    · rintro ⟨t, ⟨name, hname, ⟨hfield, hskip, rfl⟩ | ⟨f, hfield, hnew, hset⟩⟩, hms, hgathers⟩
      · exact ⟨⟨⟨name, hname, fun _ => hskip⟩, hms⟩, (Gathers.of_others (unknown hname hfield)).mpr hgathers⟩
      · obtain ⟨hf, rfl⟩ := field?_some hfield
        obtain ⟨u, hu, rfl⟩ := hsep.writes f hf m.2 room s t hset
        refine ⟨⟨⟨f.name, hname, by simp [hfield]⟩, hms⟩, ?_⟩
        exact (Gathers.cons hsep hu hname (List.Subset.refl _) hsep.names hf hnew).mp hgathers
    · rintro ⟨⟨⟨name, hname, hskip⟩, hms⟩, hgathers⟩
      cases hfield : r.field? name with
      | none =>
        refine ⟨s, ⟨name, hname, .inl ⟨hfield, hskip hfield, rfl⟩⟩, hms, ?_⟩
        exact (Gathers.of_others (unknown hname hfield)).mp hgathers
      | some f =>
        obtain ⟨hf, rfl⟩ := field?_some hfield
        obtain ⟨hnew, t, hset⟩ := hgathers.first hsep hname (List.Subset.refl _) hsep.names hf
        obtain ⟨u, hu, rfl⟩ := hsep.writes f hf m.2 room s t hset
        refine ⟨u s, ⟨f.name, hname, .inr ⟨f, hfield, hnew, hset⟩⟩, hms, ?_⟩
        exact (Gathers.cons hsep hu hname (List.Subset.refl _) hsep.names hf hnew).mpr hgathers

theorem ofMembers_eq_ok {a : ρ} : r.ofMembers ms none room = .ok a ↔
    ∃ s, r.members r.empty ms room = .ok s ∧ r.finish s = .ok a := by
  rw [ofMembers, Reading.bind_eq_ok]
  refine exists_congr fun s => and_congr Iff.rfl ?_
  rw [complete]
  cases r.finish s <;> simp [Reading.check, Reading.fail, bind, ReaderT.bind, Except.bind, pure, ReaderT.pure,
    Except.pure]

theorem ofItems_eq_ok {as : List α} {a : ρ} : r.ofItems as none room = .ok a ↔
    ∃ s, r.items none 0 r.fields r.empty as room = .ok s ∧ r.finish s = .ok a := by
  rw [ofItems, Reading.bind_eq_ok]
  refine exists_congr fun s => and_congr Iff.rfl ?_
  rw [complete]
  cases r.finish s <;> simp [Reading.fail, pure, ReaderT.pure, Except.pure]

section

variable {f : Field α σ} {fs : List (Field α σ)} {n : Nat} {a : α} {as : List α}

lemma items_done : r.items none n [] s as room = .ok s' ↔ as = [] ∧ s' = s := by
  cases as <;> simp [items, Reading.check, Reading.fail, pure, ReaderT.pure, Except.pure, bind, ReaderT.bind,
    Except.bind, eq_comm]

lemma items_absent : r.items none n (f :: fs) s [] room = .ok s' ↔
    f.optional = true ∧ r.items none (n + 1) fs s [] room = .ok s' := by
  cases h : f.optional <;> simp [items, h, Reading.check, Reading.fail, bind, ReaderT.bind, Except.bind]

lemma items_present : r.items none n (f :: fs) s (a :: as) room = .ok s' ↔
    ∃ t, f.set a s room = .ok t ∧ r.items none (n + 1) fs t as room = .ok s' := by
  rw [items, Reading.bind_eq_ok]

end

lemma field?_eq_none {name : String} : r.field? name = none ↔ name ∉ r.fields.map (·.name) := by
  rw [field?, List.find?_eq_none]
  simp

lemma ofMembers_whole {ms : List (StringLit × α)} {ending : Option Fault} {a : ρ}
    (h : r.ofMembers ms ending room = .ok a) : ending = none := by
  rw [ofMembers, Reading.bind_eq_ok] at h
  obtain ⟨s, -, h⟩ := h
  rw [Reading.bind_eq_ok] at h
  exact Reading.check_eq_ok.mp h.choose_spec.1

lemma items_whole {ending : Option Fault} {n : Nat} {fs : List (Field α σ)} {s s' : σ} {as : List α}
    (h : r.items ending n fs s as room = .ok s') : ending = none := by
  induction fs generalizing n s as with
  | nil =>
    cases as with
    | nil =>
      rw [items, Reading.bind_eq_ok] at h
      exact Reading.check_eq_ok.mp h.choose_spec.1
    | cons a as => cases h
  | cons f fs ih =>
    cases as with
    | nil =>
      rw [items, Reading.bind_eq_ok] at h
      exact Reading.check_eq_ok.mp h.choose_spec.1
    | cons a as =>
      rw [items, Reading.bind_eq_ok] at h
      exact ih h.choose_spec.2

lemma ofItems_whole {as : List α} {ending : Option Fault} {a : ρ}
    (h : r.ofItems as ending room = .ok a) : ending = none := by
  rw [ofItems, Reading.bind_eq_ok] at h
  exact items_whole h.choose_spec.1

lemma ofValue_eq_ok {r : Record Value σ ρ} {v : Value} {a : ρ} : r.ofValue v room = .ok a ↔
    ∃ n, room = n + 1 ∧ ((∃ ms, v = .object ms none ∧ r.ofMembers ms none n = .ok a) ∨
      ∃ vs, v = .array vs none ∧ r.ofItems vs none n = .ok a) := by
  cases v with
  | object ms ending =>
    simp only [ofValue, Reading.inside_eq_ok, Value.object.injEq, reduceCtorEq, false_and, exists_false, or_false]
    refine exists_congr fun n => and_congr Iff.rfl ⟨fun h => ?_, ?_⟩
    · obtain rfl := ofMembers_whole h
      exact ⟨ms, ⟨rfl, rfl⟩, h⟩
    · rintro ⟨_, ⟨rfl, rfl⟩, h⟩
      exact h
  | array vs ending =>
    simp only [ofValue, Reading.inside_eq_ok, Value.array.injEq, reduceCtorEq, false_and, exists_false, false_or]
    refine exists_congr fun n => and_congr Iff.rfl ⟨fun h => ?_, ?_⟩
    · obtain rfl := ofItems_whole h
      exact ⟨vs, ⟨rfl, rfl⟩, h⟩
    · rintro ⟨_, ⟨rfl, rfl⟩, h⟩
      exact h
  | null | bool | number | badNumber | string | broken => simp [ofValue, Reading.mismatch_ne_ok]

end Record

end AdocProse.Json
