import Mathlib.Data.List.Sort

/- Times within a sliding window, over any linear order: of a list of times, those after a
   cutoff. A later cutoff sees no more (`live_live`), and of times in order the first is the
   next to go (`live_before_oldest`, `length_live_oldest`). -/
namespace SlidingWindow
variable {T : Type} [LinearOrder T]

/-- The times after `c`. -/
def live (c : T) (ts : List T) : List T := ts.filter (c < ·)

variable {c d : T} {ts : List T}

@[simp] theorem live_append (c : T) (ts us : List T) :
    live c (ts ++ us) = live c ts ++ live c us := List.filter_append ts us

theorem mem_live {t : T} : t ∈ live c ts ↔ t ∈ ts ∧ c < t := by
  simp [live]

/-- What an earlier cutoff has dropped, a later one drops too. -/
theorem live_live (h : c ≤ d) : live d (live c ts) = live d ts := by
  unfold live
  rw [List.filter_filter]
  apply List.filter_congr
  intro t _
  by_cases hd : d < t
  · simp [hd, lt_of_le_of_lt h hd]
  · simp [hd]

theorem live_eq_nil_of_le (h : ∀ t ∈ ts, t ≤ c) : live c ts = [] := by
  rw [live, List.filter_eq_nil_iff]
  intro t ht
  simpa using h t ht

theorem live_before_oldest {oldest : T} {rest : List T} (hsorted : ts.Pairwise (· ≤ ·))
    (hlive : live c ts = oldest :: rest) (hc : c ≤ d) (hd : d < oldest) :
    live d ts = oldest :: rest := by
  have hrest : (oldest :: rest).Pairwise (· ≤ ·) := by
    rw [← hlive]
    exact hsorted.sublist List.filter_sublist
  rw [← live_live hc, hlive, live, List.filter_eq_self]
  intro t ht
  rcases List.mem_cons.mp ht with rfl | ht
  · simpa using hd
  · simpa using lt_of_lt_of_le hd ((List.pairwise_cons.mp hrest).1 t ht)

theorem length_live_oldest {oldest : T} {rest : List T} (hlive : live c ts = oldest :: rest) :
    (live oldest ts).length ≤ rest.length := by
  have hc : c < oldest := (mem_live.mp (hlive ▸ List.mem_cons_self)).2
  rw [← live_live hc.le, hlive, live, List.filter_cons_of_neg (by simp)]
  exact List.length_filter_le _ _

/-- A window of which no more than `n` are live whenever a time is added has never more
    than `n`, wherever it stands. -/
theorem length_window_snoc {shift : T → T} (hshift : Monotone shift) {now : T} {n : Nat}
    (hpast : ∀ t ∈ ts, t ≤ now) (hroom : (live (shift now) ts).length < n)
    (hbound : ∀ x, ((live (shift x) ts).filter (· ≤ x)).length ≤ n) (x : T) :
    ((live (shift x) (ts ++ [now])).filter (· ≤ x)).length ≤ n := by
  rw [live_append, List.filter_append, List.length_append]
  by_cases hx : now ≤ x
  · -- the earlier ones in the window were live when this one was added
    have hearlier : ((live (shift x) ts).filter (· ≤ x)).length ≤ (live (shift now) ts).length := by
      calc ((live (shift x) ts).filter (· ≤ x)).length ≤ (live (shift x) ts).length :=
            List.length_filter_le _ _
        _ = (live (shift x) (live (shift now) ts)).length := by rw [live_live (hshift hx)]
        _ ≤ (live (shift now) ts).length := List.length_filter_le _ _
    have hnew : ((live (shift x) [now]).filter (· ≤ x)).length ≤ 1 :=
      calc ((live (shift x) [now]).filter (· ≤ x)).length ≤ (live (shift x) [now]).length :=
            List.length_filter_le _ _
        _ ≤ 1 := List.length_filter_le _ _
    omega
  · have hnone : (live (shift x) [now]).filter (· ≤ x) = [] := by
      rw [List.filter_eq_nil_iff]
      intro t ht
      obtain rfl := List.mem_singleton.mp (mem_live.mp ht).1
      simpa using hx
    rw [hnone, List.length_nil, Nat.add_zero]
    exact hbound x

end SlidingWindow
