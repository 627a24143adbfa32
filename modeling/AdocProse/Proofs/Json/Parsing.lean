import AdocProse.Proofs.Json.Lexing

/-! A document that is written in the grammar is read as the value that it was written for. -/

namespace AdocProse.Json

namespace Term

open Token (Parts)

lemma parts_mark {t u : Token} (h : u.isMark = true) : Parts t u :=
  fun _ => h

lemma parts_separated {groups : List (List Token)} (h : ∀ g ∈ groups, g.IsChain Parts) {close : Token}
    (hclose : close.isMark = true) : ([Token.comma].intercalate groups ++ [close]).IsChain Parts := by
  induction groups with
  | nil => simp
  | cons g groups ih =>
    have hg := h g List.mem_cons_self
    have hgroups := ih fun g' hg' => h g' (List.mem_cons_of_mem _ hg')
    cases groups with
    | nil =>
      simpa using hg.append (.singleton close) (by simp [parts_mark hclose])
    | cons g' groups =>
      rw [List.intercalate_cons_cons, List.append_assoc, List.append_assoc]
      apply hg.append
      · exact hgroups.cons (by simp [Parts, Token.isNumber])
      · rintro t - u hu
        cases hu
        exact parts_mark rfl

lemma itemTokens_eq (xs : List Term) : itemTokens xs = xs.map tokens := by
  induction xs with
  | nil => rfl
  | cons x xs ih => rw [itemTokens, ih, List.map_cons]

lemma memberTokens_eq (ms : List (List Piece × Term)) :
    memberTokens ms = ms.map fun m => .string ⟨m.1, none⟩ :: .colon :: m.2.tokens := by
  induction ms with
  | nil => rfl
  | cons m ms ih => rw [memberTokens, ih, List.map_cons]

lemma parts_tokens (x : Term) : x.tokens.IsChain Parts := by
  induction x using Term.induct with
  | null | bool | number | string => exact .singleton _
  | array items ih =>
    rw [tokens, itemTokens_eq]
    apply List.IsChain.cons
    · exact parts_separated (by simpa using ih) rfl
    · exact fun _ _ h => absurd h (by simp [Token.isNumber])
  | object members ih =>
    rw [tokens, memberTokens_eq]
    apply List.IsChain.cons
    · apply parts_separated _ rfl
      intro g hg
      obtain ⟨m, hm, rfl⟩ := List.mem_map.mp hg
      exact ((ih m hm).cons (by simp [Parts, Token.isNumber])).cons (by simp [Parts, Token.isNumber])
    · exact fun _ _ h => absurd h (by simp [Token.isNumber])

lemma values_eq (xs : List Term) : values xs = xs.map value := by
  induction xs with
  | nil => rfl
  | cons x xs ih => rw [values, ih, List.map_cons]

lemma memberValues_eq (ms : List (List Piece × Term)) :
    memberValues ms = ms.map fun m => (⟨m.1, none⟩, m.2.value) := by
  induction ms with
  | nil => rfl
  | cons m ms ih => rw [memberValues, ih, List.map_cons]

/-- Wherever a value is awaited, the tokens of the term are read as its value. -/
def Runs (x : Term) : Prop :=
  ∀ frames ts, Awaiting.run (.value frames) (x.tokens ++ ts) = Awaiting.run (.next x.value frames) ts

lemma run_items {xs : List Term} (hne : xs ≠ []) (h : ∀ x ∈ xs, x.Runs) (done : List Value)
    (frames : List Frame) (ts : List Token) :
    Awaiting.run (.value (.array done :: frames))
        ([Token.comma].intercalate (xs.map tokens) ++ .closeArray :: ts) =
      Awaiting.run (.next (.array (done.reverse ++ xs.map value) none) frames) ts := by
  induction xs generalizing done with
  | nil => exact absurd rfl hne
  | cons x xs ih =>
    have hx := h x List.mem_cons_self
    cases xs with
    | nil =>
      rw [List.map_singleton, List.intercalate_singleton, hx, Awaiting.run]
      simp [Awaiting.step]
    | cons y xs =>
      have hxs := ih (List.cons_ne_nil y xs) (fun z hz => h z (List.mem_cons_of_mem _ hz)) (x.value :: done)
      rw [List.map_cons, List.map_cons] at hxs ⊢
      rw [List.intercalate_cons_cons, List.append_assoc, List.append_assoc, hx, List.singleton_append,
        Awaiting.run]
      simp only [Awaiting.step]
      rw [hxs]
      simp

lemma run_members {ms : List (List Piece × Term)} (hne : ms ≠ []) (h : ∀ m ∈ ms, m.2.Runs)
    (done : List (StringLit × Value)) (frames : List Frame) (ts : List Token) :
    Awaiting.run (.member done frames) ([Token.comma].intercalate
        (ms.map fun m => .string ⟨m.1, none⟩ :: .colon :: m.2.tokens) ++ .closeObject :: ts) =
      Awaiting.run (.next (.object (done.reverse ++ ms.map fun m => (⟨m.1, none⟩, m.2.value)) none)
        frames) ts := by
  induction ms generalizing done with
  | nil => exact absurd rfl hne
  | cons m ms ih =>
    have hkey : ∀ ts, Awaiting.run (.member done frames)
        (.string ⟨m.1, none⟩ :: .colon :: (m.2.tokens ++ ts)) =
        Awaiting.run (.next m.2.value (.object done ⟨m.1, none⟩ :: frames)) ts := by
      intro ts
      rw [← h m List.mem_cons_self]
      cases done <;> rfl
    cases ms with
    | nil =>
      rw [List.map_singleton, List.intercalate_singleton, List.cons_append, List.cons_append, hkey,
        Awaiting.run]
      simp [Awaiting.step]
    | cons m' ms =>
      have hms := ih (List.cons_ne_nil m' ms) (fun n hn => h n (List.mem_cons_of_mem _ hn))
        ((⟨m.1, none⟩, m.2.value) :: done)
      rw [List.map_cons, List.map_cons] at hms ⊢
      rw [List.intercalate_cons_cons, List.append_assoc, List.append_assoc, List.cons_append,
        List.cons_append, hkey, List.singleton_append, Awaiting.run]
      simp only [Awaiting.step]
      rw [hms]
      simp

def Begins (t : Token) : Prop :=
  t ≠ .closeArray ∧ ∀ frames, ∃ a, Awaiting.begin frames t = .ok a

lemma tokens_cons (x : Term) : ∃ t ts, x.tokens = t :: ts ∧ Begins t := by
  cases x <;> exact ⟨_, _, rfl, by simp, fun frames => ⟨_, rfl⟩⟩

lemma run_open {t : Token} (h : Begins t) (frames : List Frame) (ts : List Token) :
    Awaiting.run (.item frames) (t :: ts) = Awaiting.run (.value (.array [] :: frames)) (t :: ts) := by
  obtain ⟨hclose, hbegin⟩ := h
  obtain ⟨a, ha⟩ := hbegin (.array [] :: frames)
  have hitem : Awaiting.step (.item frames) t = .ok a := by
    rw [← ha]
    cases t with
    | closeArray => exact absurd rfl hclose
    | _ => rfl
  have hvalue : Awaiting.step (.value (.array [] :: frames)) t = .ok a := ha
  simp only [Awaiting.run, hitem, hvalue]

lemma runs (x : Term) : x.Runs := by
  intro frames ts
  induction x using Term.induct generalizing frames ts with
  | null | bool | number | string => rfl
  | array items ih =>
    rw [tokens, itemTokens_eq, value, values_eq, List.cons_append, List.append_assoc,
      List.singleton_append]
    cases items with
    | nil => rfl
    | cons x xs =>
      have hitems := run_items (List.cons_ne_nil x xs) ih [] frames ts
      obtain ⟨t, us, hx, hbegins⟩ := tokens_cons x
      rw [List.map_cons, hx, List.intercalate_cons_cons_left] at hitems ⊢
      exact (run_open hbegins frames _).trans hitems
  | object members ih =>
    rw [tokens, memberTokens_eq, value, memberValues_eq, List.cons_append, List.append_assoc,
      List.singleton_append]
    cases members with
    | nil => rfl
    | cons m ms => exact run_members (List.cons_ne_nil m ms) ih [] frames ts

lemma ofBytes_spelled {x : Term} {document : List UInt8} (h : x.Spelled document) :
    Document.ofBytes document = ⟨x.value, false⟩ := by
  have hrun := x.runs [] []
  rw [List.append_nil] at hrun
  rw [Document.ofBytes, Token.list_laid h (parts_tokens x), Document.ofTokens, hrun]
  rfl

lemma eq_of_map_eq {α β : Type} {f : α → β} {xs ys : List α} (hinj : ∀ a ∈ xs, ∀ b, f a = f b → a = b)
    (h : xs.map f = ys.map f) : xs = ys := by
  induction xs generalizing ys with
  | nil => exact (List.map_eq_nil_iff.mp h.symm).symm
  | cons a xs ih =>
    cases ys with
    | nil => simp at h
    | cons b ys =>
      rw [List.map_cons, List.map_cons, List.cons.injEq] at h
      rw [hinj a List.mem_cons_self b h.1, ih (fun c hc => hinj c (List.mem_cons_of_mem _ hc)) h.2]

lemma value_inj {x y : Term} (h : x.value = y.value) : x = y := by
  induction x using Term.induct generalizing y with
  | null | bool | number | string => cases y <;> simp_all [value]
  | array items ih =>
    cases y with
    | array items' =>
      simp only [value, values_eq, Value.array.injEq, and_true] at h
      rw [eq_of_map_eq (fun x hx _ => ih x hx) h]
    | _ => simp [value] at h
  | object members ih =>
    cases y with
    | object members' =>
      simp only [value, memberValues_eq, Value.object.injEq, and_true] at h
      have hinj : ∀ m ∈ members, ∀ m', (⟨⟨m.1, none⟩, m.2.value⟩ : StringLit × Value) = ⟨⟨m'.1, none⟩, m'.2.value⟩ →
          m = m' := by
        intro m hm m' hm'
        simp only [Prod.mk.injEq, StringLit.mk.injEq, and_true] at hm'
        exact Prod.ext hm'.1 (ih m hm hm'.2)
      rw [eq_of_map_eq hinj h]
    | _ => simp [value] at h

lemma spelled_unique {x y : Term} {document : List UInt8} (hx : x.Spelled document)
    (hy : y.Spelled document) : x = y := by
  have h := (ofBytes_spelled hx).symm.trans (ofBytes_spelled hy)
  exact value_inj (congrArg Document.root h)

lemma skipFault_value (x : Term) : x.value.skipFault = none := by
  induction x using Term.induct with
  | null | bool | number | string => rfl
  | array items ih =>
    rw [value, values_eq, Value.skipFault, Option.or_none]
    induction items with
    | nil => rfl
    | cons x xs ihs =>
      rw [List.map_cons, Value.skipFaultOfItems, ih x List.mem_cons_self, Option.none_or,
        ihs fun y hy => ih y (List.mem_cons_of_mem _ hy)]
  | object members ih =>
    rw [value, memberValues_eq, Value.skipFault, Option.or_none]
    induction members with
    | nil => rfl
    | cons m ms ihs =>
      rw [List.map_cons, Value.skipFaultOfMembers, ih m List.mem_cons_self, Option.none_or,
        Option.none_or, ihs fun n hn => ih n (List.mem_cons_of_mem _ hn)]

example : (Term.array [.object [([], .null)], .bool true]).value.skipFault = none := by decide +kernel

end Term

end AdocProse.Json
