import Mathlib.Data.List.Basic
import Mathlib.Order.Lattice

/-!
# Keyset pagination

A query selects the rows past a cursor in the order of their keys, at most `n` of them
(`select`). A page asks for one row more than its limit, to know whether there is a next page, and
its cursor is the key of its last row (`Page.fromOverfetch`). A client that follows the cursors
over unchanged rows with distinct keys gets every row once, in order (`walk_eq`, `client_same`).
Where the rows change between the pages, it still gets every key that stays once
(`client_changing`). Cursors may travel as tokens (`client_tokens`).
-/

namespace Keyset

variable {ρ κ : Type*} [LinearOrder κ] (key : ρ → κ)

/-- The key is past the cursor. -/
def past (cursor : Option κ) (k : κ) : Bool := cursor.all fun c => c < k

/-- The rows in the order of their keys. -/
def ordered (rows : List ρ) : List ρ := rows.mergeSort fun a b => key a ≤ key b

/-- `WHERE key > cursor ORDER BY key LIMIT n` -/
def select (rows : List ρ) (cursor : Option κ) (n : ℕ) : List ρ :=
  (ordered key (rows.filter fun r => past cursor (key r))).take n

/-- A page of a list. -/
structure Page (ρ κ : Type*) where
  data : List ρ
  nextCursor : Option κ
  hasNextPage : Bool

/-- The page of at most `limit` rows, made from `limit + 1` rows. -/
def Page.fromOverfetch (rows : List ρ) (limit : ℕ) (cursorOf : ρ → κ) : Page ρ κ :=
  let hasNextPage := decide (limit < rows.length)
  let data := if hasNextPage then rows.take limit else rows
  { data
    nextCursor := if hasNextPage then data.getLast?.map cursorOf else none
    hasNextPage }

/-- The page of the rows past a cursor. -/
def page (rows : List ρ) (cursor : Option κ) (limit : ℕ) : Page ρ κ :=
  .fromOverfetch (select key rows cursor (limit + 1)) limit key

/-- The data of the page and of the pages after it, as many as `fuel` allows. -/
def walk (rows : List ρ) (limit : ℕ) : ℕ → Option κ → List ρ
  | 0, _ => []
  | fuel + 1, cursor =>
    let p := page key rows cursor limit
    p.data ++ (p.nextCursor.elim [] fun c => walk rows limit fuel (some c))

/-- The same with a query that may fail, as a client sees it. -/
def follow (query : Option κ → Option (List ρ)) (limit : ℕ) : ℕ → Option κ → Option (List ρ)
  | 0, _ => some []
  | fuel + 1, cursor => do
    let p := Page.fromOverfetch (← query cursor) limit key
    return p.data ++ (← p.nextCursor.elim (some []) fun c => follow query limit fuel (some c))

/-- Requests one after another, each with the cursor of the answer before. Nothing, if an answer
    fails or the last one has a next page. -/
def client {σ τ : Type*} (respond : σ → Option τ → Option (Page ρ τ)) :
    List σ → Option τ → Option (List ρ)
  | [], _ => none
  | s :: ss, token => (respond s token).bind fun p =>
    p.nextCursor.elim (some p.data) fun t => (client respond ss (some t)).map (p.data ++ ·)

/-- The answer from the rows and with the limit of a request. -/
def pageOf (request : List ρ × ℕ) (cursor : Option κ) : Option (Page ρ κ) :=
  some (page key request.1 cursor request.2)

variable {key} {rows : List ρ} {cursor : Option κ} {limit n : ℕ}

/-- Ordering keeps the rows. -/
theorem mem_ordered {r : ρ} : r ∈ ordered key rows ↔ r ∈ rows := List.mem_mergeSort

/-- Ordering permutes the rows. -/
theorem perm_ordered : (ordered key rows).Perm rows := List.mergeSort_perm ..

/-- The ordered rows ascend in their keys. -/
theorem pairwise_ordered : (ordered key rows).Pairwise fun a b => key a ≤ key b := by
  have htrans : ∀ a b c : ρ, decide (key a ≤ key b) = true → decide (key b ≤ key c) = true →
      decide (key a ≤ key c) = true := by
    intro a b c hab hbc
    rw [decide_eq_true_eq] at hab hbc ⊢
    exact hab.trans hbc
  have htotal : ∀ a b : ρ, (decide (key a ≤ key b) || decide (key b ≤ key a)) = true := by
    intro a b
    rw [Bool.or_eq_true, decide_eq_true_eq, decide_eq_true_eq]
    exact le_total _ _
  exact (List.pairwise_mergeSort htrans htotal rows).imp of_decide_eq_true

/-- The last row in order is the one with the greatest key. -/
theorem getLast?_ordered {r : ρ} (hr : r ∈ rows) (hmax : ∀ x ∈ rows, key r ≤ key x → x = r) :
    (ordered key rows).getLast? = some r := by
  have hmem : r ∈ ordered key rows := mem_ordered.mpr hr
  obtain ⟨init, last, hsplit⟩ :=
    (List.eq_nil_or_concat' (ordered key rows)).resolve_left (List.ne_nil_of_mem hmem)
  have hsorted : (ordered key rows).Pairwise fun a b => key a ≤ key b := pairwise_ordered
  have hlast : last ∈ rows := mem_ordered.mp (hsplit ▸ List.mem_concat_self)
  have hle : key r ≤ key last := by
    -- `r` is not after `last`, and `last` is the only row that is not before `r`
    rw [hsplit] at hmem hsorted
    rcases List.mem_append.mp hmem with hinit | heq
    · exact (List.pairwise_append.mp hsorted).2.2 r hinit last (List.mem_singleton_self last)
    · rw [List.mem_singleton.mp heq]
  rw [hsplit, List.getLast?_concat, hmax last hlast hle]

/-- The first row with a property has the least key of them. -/
theorem find?_sorted {l : List ρ} (hl : l.Pairwise fun a b => key a ≤ key b) {p : ρ → Bool} {x : ρ}
    (hx : x ∈ l) (hp : p x = true) (hmin : ∀ y ∈ l, p y = true → key x ≤ key y) :
    ∃ y ∈ l, l.find? p = some y ∧ key y = key x := by
  obtain ⟨y, hy⟩ := Option.isSome_iff_exists.mp (List.find?_isSome.mpr ⟨x, hx, hp⟩)
  have hmem : y ∈ l := List.mem_of_find?_eq_some hy
  refine ⟨y, hmem, hy, le_antisymm ?_ (hmin y hmem (List.find?_some hy))⟩
  -- the first match is not after `x`, and the list ascends
  obtain ⟨-, before, after, rfl, hnone⟩ := List.find?_eq_some_iff_append.mp hy
  rcases List.mem_append.mp hx with hbefore | hafter
  · have hno := hnone x hbefore
    rw [hp] at hno
    cases hno
  · rcases List.mem_cons.mp hafter with rfl | hafter
    · exact le_refl _
    · exact (List.pairwise_cons.mp (List.pairwise_append.mp hl).2.1).1 x hafter

/-- Rows with distinct keys are strictly ordered. -/
theorem strict_ordered (hkeys : (rows.map key).Nodup) :
    (ordered key rows).Pairwise fun a b => key a < key b := by
  have hdistinct : (ordered key rows).Pairwise fun a b => key a ≠ key b :=
    List.pairwise_map.mp ((perm_ordered.map key).nodup_iff.mpr hkeys)
  exact (pairwise_ordered.and hdistinct).imp fun h => lt_of_le_of_ne h.1 h.2

/-- Selecting before or after ordering is the same. -/
theorem ordered_filter (hkeys : (rows.map key).Nodup) (p : ρ → Bool) :
    ordered key (rows.filter p) = (ordered key rows).filter p := by
  have hkeys' : ((rows.filter p).map key).Nodup := hkeys.sublist (List.filter_sublist.map key)
  exact List.Perm.eq_of_pairwise (fun _ _ _ _ hab hba => absurd (hab.trans hba) (lt_irrefl _))
    (strict_ordered hkeys') ((strict_ordered hkeys).filter p)
    (perm_ordered.trans (perm_ordered.filter p).symm)

/-- What is past a row of a strictly ordered list is the rest of the list. -/
theorem filter_past {l : List ρ} (hl : l.Pairwise fun a b => key a < key b) {before after : List ρ}
    {r : ρ} (hsplit : l = before ++ r :: after) :
    (l.filter fun x => past (some (key r)) (key x)) = after := by
  subst hsplit
  obtain ⟨-, hafter, hbefore⟩ := List.pairwise_append.mp hl
  rw [List.filter_append, List.filter_eq_nil_iff.mpr, List.nil_append,
    List.filter_cons_of_neg (by simp [past]), List.filter_eq_self.mpr]
  -- all rows behind `r` are past its key, none up to `r` is
  · intro x hx
    simpa [past] using List.rel_of_pairwise_cons hafter hx
  · intro x hx
    simpa [past] using (hbefore x hx r List.mem_cons_self).le

/-- Past a later cursor is past an earlier one. -/
theorem filter_past_past {l : List ρ} {r : ρ} (hr : past cursor (key r) = true) :
    (l.filter fun x => past cursor (key x)).filter (fun x => past (some (key r)) (key x)) =
      l.filter fun x => past (some (key r)) (key x) := by
  rw [List.filter_filter]
  refine List.filter_congr fun x _ => ?_
  -- a row past the key of `r` is past the old cursor, since `r` is
  cases cursor with
  | none => simp [past]
  | some c =>
    simp only [past, Option.all_some, decide_eq_true_eq] at hr ⊢
    by_cases hx : key r < key x
    · simp [hx, hr.trans hx]
    · simp [hx]

/-- A page is the last one and has all the rows past its cursor, or its last row is the next
    cursor. -/
theorem page_cases (cursor : Option κ) (hkeys : (rows.map key).Nodup) (hlimit : 0 < limit) :
    ((page key rows cursor limit).nextCursor = none ∧
      (page key rows cursor limit).data = (ordered key rows).filter fun r => past cursor (key r)) ∨
    ∃ init r after, (page key rows cursor limit).nextCursor = some (key r) ∧
      (page key rows cursor limit).data = init ++ [r] ∧
      (ordered key rows).filter (fun r => past cursor (key r)) = init ++ r :: after ∧
      (ordered key rows).filter (fun x => past (some (key r)) (key x)) = after := by
  have hstrict := (strict_ordered hkeys).filter fun r => past cursor (key r)
  rw [page, select, ordered_filter hkeys]
  generalize hrest : (ordered key rows).filter (fun r => past cursor (key r)) = rest at *
  by_cases hmore : limit < rest.length
  · -- the page is full: its last row is the next cursor
    right
    have hlength : limit < (rest.take (limit + 1)).length := by
      rw [List.length_take]
      omega
    have hdata : (rest.take (limit + 1)).take limit = rest.take limit := by
      rw [List.take_take, Nat.min_eq_left (Nat.le_succ _)]
    have hne : rest.take limit ≠ [] := by
      rw [← List.length_pos_iff, List.length_take]
      omega
    obtain ⟨init, r, hlast⟩ := (List.eq_nil_or_concat' (rest.take limit)).resolve_left hne
    have hsplit : rest = init ++ r :: rest.drop limit := by
      conv_lhs => rw [← List.take_append_drop limit rest, hlast]
      simp
    have hr : past cursor (key r) = true := by
      have hmem : r ∈ rest := hsplit ▸ List.mem_append_right _ List.mem_cons_self
      rw [← hrest] at hmem
      exact (List.mem_filter.mp hmem).2
    have hafter : (ordered key rows).filter (fun x => past (some (key r)) (key x)) =
        rest.drop limit := by
      rw [← filter_past_past hr, hrest, filter_past hstrict hsplit]
    refine ⟨init, r, rest.drop limit, ?_, ?_, hsplit, hafter⟩
    · simp only [Page.fromOverfetch, hlength, hdata, hlast, decide_true, if_true]
      simp
    · simp only [Page.fromOverfetch, hlength, hdata, hlast, decide_true, if_true]
  · left
    have htake : rest.take (limit + 1) = rest := List.take_of_length_le (by omega)
    constructor
    · simp [Page.fromOverfetch, htake, hmore]
    · simp [Page.fromOverfetch, htake, hmore]

/-- A page shows rows of the table. -/
theorem mem_page {r : ρ} (h : r ∈ (page key rows cursor limit).data) : r ∈ rows := by
  have hselect : r ∈ select key rows cursor (limit + 1) := by
    unfold page Page.fromOverfetch at h
    dsimp only at h
    split at h
    · exact List.mem_of_mem_take h
    · exact h
  exact (List.mem_filter.mp (mem_ordered.mp (List.mem_of_mem_take hselect))).1

/-- Without a cursor the query returns the first rows. -/
theorem select_none : select key rows none n = (ordered key rows).take n := by
  have hall : (rows.filter fun r => past none (key r)) = rows :=
    List.filter_eq_self.mpr fun _ _ => rfl
  rw [select, hall]

/-- A page is all the rows, if they are within its limit. -/
theorem data_eq_ordered (hfits : rows.length ≤ limit) :
    (page key rows none limit).data = ordered key rows := by
  have hall : select key rows none (limit + 1) = ordered key rows := by
    rw [select_none]
    exact List.take_of_length_le (by rw [perm_ordered.length_eq]; omega)
  -- all rows fit, so there is no next page
  have hlength : ¬ limit < (ordered key rows).length := by
    rw [perm_ordered.length_eq]
    omega
  unfold page Page.fromOverfetch
  rw [hall]
  simp [hlength]

/-- The first page of some rows has some. -/
theorem data_ne_nil (hrows : rows ≠ []) (hlimit : 0 < limit) :
    (page key rows none limit).data ≠ [] := by
  have hpos : 0 < rows.length := List.length_pos_iff.mpr hrows
  have hlength : (select key rows none (limit + 1)).length = min (limit + 1) rows.length := by
    rw [select_none, List.length_take, perm_ordered.length_eq]
  unfold page Page.fromOverfetch
  rw [← List.length_pos_iff]
  dsimp only
  by_cases hmore : limit < (select key rows none (limit + 1)).length
  · simp only [hmore, decide_true, if_true, List.length_take]
    omega
  · simp only [hmore, decide_false, Bool.false_eq_true, if_false]
    omega

/-- The next cursor is the key of a row. -/
theorem mem_nextCursor {c : κ} (h : c ∈ (page key rows cursor limit).nextCursor) :
    ∃ r ∈ rows, key r = c := by
  -- the cursor is the key of the last row shown, in both shapes of a page
  have hlast : ((page key rows cursor limit).data.getLast?.map key) = some c := by
    unfold page Page.fromOverfetch at h ⊢
    dsimp only at h ⊢
    split at h
    · next hmore =>
      rw [if_pos hmore]
      exact h
    · cases h
  obtain ⟨r, hr, rfl⟩ := Option.map_eq_some_iff.mp hlast
  exact ⟨r, mem_page (List.mem_of_getLast? hr), rfl⟩

/-- Following the cursors gives every row past the first one, once and in order. -/
theorem walk_past (hkeys : (rows.map key).Nodup) (hlimit : 0 < limit) {fuel : ℕ}
    (hfuel : ((ordered key rows).filter fun r => past cursor (key r)).length < fuel) :
    walk key rows limit fuel cursor = (ordered key rows).filter fun r => past cursor (key r) := by
  induction fuel generalizing cursor with
  | zero => omega
  | succ fuel ih =>
    unfold walk
    rcases page_cases cursor hkeys hlimit with
      ⟨hnext, hdata⟩ | ⟨init, r, after, hnext, hdata, hsplit, hafter⟩
    -- the last page shows the rest
    · simp only [hnext, hdata, Option.elim_none, List.append_nil]
    -- after a full page the walk goes on past its last row, with less fuel
    · have hwalk : walk key rows limit fuel (some (key r)) = after := by
        rw [← hafter]
        refine ih ?_
        rw [hafter]
        rw [hsplit, List.length_append, List.length_cons] at hfuel
        omega
      simp only [hnext, hdata, Option.elim_some, hwalk, hsplit]
      rw [List.append_assoc, List.singleton_append]

/-- Following the cursors from the first page gives every row once, in order. -/
theorem walk_eq (hkeys : (rows.map key).Nodup) (hlimit : 0 < limit) {fuel : ℕ}
    (hfuel : rows.length < fuel) : walk key rows limit fuel none = ordered key rows := by
  have hall : ((ordered key rows).filter fun r => past none (key r)) = ordered key rows :=
    List.filter_eq_self.mpr fun _ _ => rfl
  rw [walk_past hkeys hlimit, hall]
  rwa [hall, perm_ordered.length_eq]

/-- A client walks through the rows the query selects from. -/
theorem follow_eq {query : Option κ → Option (List ρ)}
    (hquery : ∀ cursor, query cursor = some (select key rows cursor (limit + 1))) (fuel : ℕ) :
    follow key query limit fuel cursor = some (walk key rows limit fuel cursor) := by
  induction fuel generalizing cursor with
  | zero => rfl
  | succ fuel ih =>
    unfold follow walk page
    simp only [hquery, Option.pure_def, Option.bind_eq_bind, Option.bind_some]
    cases (Page.fromOverfetch (select key rows cursor (limit + 1)) limit key).nextCursor with
    | none => rfl
    | some c => simp only [Option.elim_some, ih, Option.bind_some]

/-- From the first page a client gets every row once, in order. -/
theorem follow_ordered {query : Option κ → Option (List ρ)}
    (hquery : ∀ cursor, query cursor = some (select key rows cursor (limit + 1)))
    (hkeys : (rows.map key).Nodup) (hlimit : 0 < limit) {fuel : ℕ} (hfuel : rows.length < fuel) :
    follow key query limit fuel none = some (ordered key rows) := by
  rw [follow_eq hquery, walk_eq hkeys hlimit hfuel]

/-! ## Requests of a client -/

theorem client_cons {σ τ : Type*} {respond : σ → Option τ → Option (Page ρ τ)} {s : σ} {ss : List σ}
    {token : Option τ} : client respond (s :: ss) token = (respond s token).bind fun p =>
      p.nextCursor.elim (some p.data) fun t => (client respond ss (some t)).map (p.data ++ ·) := rfl

section Client

variable {requests : List (List ρ × ℕ)} {data : List ρ} {k : κ}

/-- Over unchanged rows, with any limits, a client gets every row past its cursor. -/
theorem client_past (hkeys : (rows.map key).Nodup) {limits : List ℕ} (hlimits : ∀ n ∈ limits, 0 < n)
    (hmany : ((ordered key rows).filter fun r => past cursor (key r)).length < limits.length) :
    client (pageOf key) (limits.map fun n => (rows, n)) cursor =
      some ((ordered key rows).filter fun r => past cursor (key r)) := by
  induction limits generalizing cursor with
  | nil => exact absurd hmany (Nat.not_lt_zero _)
  | cons limit limits ih =>
    rw [List.map_cons, client_cons, pageOf, Option.bind_some]
    rcases page_cases cursor hkeys (hlimits limit List.mem_cons_self) with
      ⟨hnext, hdata⟩ | ⟨init, r, after, hnext, hdata, hsplit, hafter⟩
    -- a page without a token shows all that was left
    · rw [hnext, hdata, Option.elim_none]
    · have hrest : client (pageOf key) (limits.map fun n => (rows, n)) (some (key r)) =
          some after := by
        rw [← hafter]
        refine ih (fun n hn => hlimits n (List.mem_cons_of_mem _ hn)) ?_
        -- a full page has at least one row, so one request less is enough for the rest
        rw [hafter]
        rw [hsplit, List.length_append, List.length_cons, List.length_cons] at hmany
        omega
      rw [hnext, hdata, hsplit, Option.elim_some, hrest, Option.map_some, List.append_assoc,
        List.singleton_append]

/-- From the first page it gets every row once, in order. -/
theorem client_same (hkeys : (rows.map key).Nodup) {limits : List ℕ} (hlimits : ∀ n ∈ limits, 0 < n)
    (hmany : rows.length < limits.length) :
    client (pageOf key) (limits.map fun n => (rows, n)) none = some (ordered key rows) := by
  have hall : ((ordered key rows).filter fun r => past none (key r)) = ordered key rows :=
    List.filter_eq_self.mpr fun _ _ => rfl
  rw [client_past hkeys hlimits, hall]
  rwa [hall, perm_ordered.length_eq]

/-- How often a key that is there comes past a cursor. -/
theorem count_past (cursor : Option κ) (hkeys : (rows.map key).Nodup) (hk : k ∈ rows.map key) :
    (((ordered key rows).filter fun r => past cursor (key r)).map key).count k =
      if past cursor k then 1 else 0 := by
  -- keys are distinct, so a key counts once or not at all
  have hperm : ((ordered key rows).map key).Perm (rows.map key) := perm_ordered.map key
  have hnodup : ((ordered key rows).map key).Nodup := hperm.nodup_iff.mpr hkeys
  have hfilter : ((ordered key rows).filter fun r => past cursor (key r)).map key =
      ((ordered key rows).map key).filter (past cursor) := by
    rw [List.filter_map]
    rfl
  have hmem : k ∈ (ordered key rows).map key := hperm.mem_iff.mpr hk
  rw [hfilter]
  by_cases hpast : past cursor k = true
  · rw [if_pos hpast, List.count_filter hpast, List.Nodup.count hnodup, if_pos hmem]
  · rw [if_neg hpast]
    exact List.count_eq_zero.mpr fun h => hpast (List.mem_filter.mp h).2

/-- Rows may come, go and change their keys between the pages: a walk that ends has returned each
    key that stayed past its cursor once. -/
theorem client_changing (hkeys : ∀ q ∈ requests, (q.1.map key).Nodup ∧ 0 < q.2)
    (hk : ∀ q ∈ requests, k ∈ q.1.map key)
    (h : client (pageOf key) requests cursor = some data) :
    (data.map key).count k = if past cursor k then 1 else 0 := by
  induction requests generalizing cursor data with
  | nil => cases h
  | cons q requests ih =>
    rw [client_cons, pageOf, Option.bind_some] at h
    obtain ⟨hnodup, hlimit⟩ := hkeys q List.mem_cons_self
    have hcount := count_past cursor hnodup (hk q List.mem_cons_self)
    rcases page_cases cursor hnodup hlimit with
      ⟨hnext, hdata⟩ | ⟨init, r, after, hnext, hdata, hsplit, hafter⟩
    · rw [hnext, hdata, Option.elim_none] at h
      rw [← Option.some.inj h, hcount]
    · rw [hnext, hdata, Option.elim_some] at h
      obtain ⟨rest, hrest, rfl⟩ := Option.map_eq_some_iff.mp h
      have hafterCount := count_past (some (key r)) hnodup (hk q List.mem_cons_self)
      rw [hafter] at hafterCount
      -- the key is on this page, or past its last row
      have hlater := ih (fun q hq => hkeys q (List.mem_cons_of_mem _ hq))
        (fun q hq => hk q (List.mem_cons_of_mem _ hq)) hrest
      have hjoin : init ++ r :: after = (init ++ [r]) ++ after := by simp
      rw [hsplit, hjoin, List.map_append, List.count_append, hafterCount] at hcount
      rw [List.map_append, List.count_append, hlater, hcount]

/-- What a client gets was there at one of its requests. -/
theorem mem_client {r : ρ} (h : client (pageOf key) requests cursor = some data) (hr : r ∈ data) :
    ∃ q ∈ requests, r ∈ q.1 := by
  induction requests generalizing cursor data with
  | nil => cases h
  | cons q requests ih =>
    rw [client_cons, pageOf, Option.bind_some] at h
    cases hnext : (page key q.1 cursor q.2).nextCursor with
    | none =>
      rw [hnext, Option.elim_none] at h
      obtain rfl := Option.some.inj h
      exact ⟨q, List.mem_cons_self, mem_page hr⟩
    | some c =>
      rw [hnext, Option.elim_some] at h
      obtain ⟨rest, hrest, rfl⟩ := Option.map_eq_some_iff.mp h
      -- a row of the answer is on the first page or on a later one
      rcases List.mem_append.mp hr with hhere | hlater
      · exact ⟨q, List.mem_cons_self, mem_page hhere⟩
      · obtain ⟨q', hq', hmem⟩ := ih hrest hlater
        exact ⟨q', List.mem_cons_of_mem _ hq', hmem⟩

end Client

/-! ## Tokens -/

/-- The page with tokens for cursors. -/
def Page.mapCursor {τ : Type*} (f : κ → τ) (p : Page ρ κ) : Page ρ τ where
  data := p.data
  nextCursor := p.nextCursor.map f
  hasNextPage := p.hasNextPage

omit [LinearOrder κ] in
/-- A page whose cursor is computed from the key is the page of keys, its cursor mapped. -/
theorem Page.fromOverfetch_comp {τ : Type*} (f : κ → τ) (rows : List ρ) (limit : ℕ) :
    Page.fromOverfetch rows limit (fun r => f (key r)) =
      (Page.fromOverfetch rows limit key).mapCursor f := by
  unfold fromOverfetch mapCursor
  by_cases h : limit < rows.length
  · simp only [h, decide_true, if_true, Option.map_map]
    rfl
  · simp only [h, decide_false, if_false, Option.map_none, Bool.false_eq_true]

omit [LinearOrder κ] in
/-- A client that sends back tokens walks like one that sends keys, if the server reads the token
    of every key it gave. -/
theorem client_tokens {σ σ' τ : Type*} (encode : κ → τ) (Valid : κ → Prop) (cursor : Option κ)
    {respond : σ → Option τ → Option (Page ρ τ)} {respond' : σ' → Option κ → Option (Page ρ κ)}
    {f : σ → σ'} {ss : List σ}
    (hrespond : ∀ s ∈ ss, ∀ cursor : Option κ, (∀ c ∈ cursor, Valid c) → ∃ p,
      respond' (f s) cursor = some p ∧ respond s (cursor.map encode) = some (p.mapCursor encode) ∧
      ∀ c ∈ p.nextCursor, Valid c) (hcursor : ∀ c ∈ cursor, Valid c) :
    client respond ss (cursor.map encode) = client respond' (ss.map f) cursor := by
  induction ss generalizing cursor with
  | nil => rfl
  | cons s ss ih =>
    obtain ⟨p, hkeys, htokens, hvalid⟩ := hrespond s List.mem_cons_self cursor hcursor
    rw [List.map_cons, client_cons, client_cons, hkeys, htokens, Option.bind_some, Option.bind_some]
    cases hnext : p.nextCursor with
    -- without a next page both clients stop here
    | none =>
      show (p.nextCursor.map encode).elim _ _ = _
      rw [hnext]
      rfl
    | some c =>
      -- the token decodes to the key it was made of, so both clients go on alike
      have hrest := @ih (some c) (fun s hs => hrespond s (List.mem_cons_of_mem _ hs))
        (fun c' hc' => hvalid c' (hnext ▸ hc'))
      rw [Option.map_some] at hrest
      show (p.nextCursor.map encode).elim _ _ = _
      rw [hnext, Option.map_some, Option.elim_some, Option.elim_some, hrest]
      rfl

end Keyset
