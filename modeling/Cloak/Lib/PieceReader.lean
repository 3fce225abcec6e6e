import Mathlib.Data.List.Basic
import Mathlib.Data.List.Infix

set_option autoImplicit false

/-! # Readers that ask for what they want

A resumable reader says at each moment how many more items the piece in flight wants, and is given at
most as many. `PieceReader.feed` hands it a whole list that way. The laws say that a piece may come
in parts, and from them feeding depends on the items alone and not on the parts (`feed_append`), and a
reader that is never given more than it wants stops exactly where its input ends (`Within`). -/

namespace Cloak.Lib

universe u v

variable {α : Type u} {σ : Type v}

/-- A reader. It wants nothing when it has ended. -/
structure PieceReader (α : Type u) (σ : Type v) where
  want : σ → Nat
  piece : σ → List α → σ
  Ok : σ → Prop
  piece_ok : ∀ {s xs}, Ok s → xs ≠ [] → xs.length ≤ want s → Ok (piece s xs)
  want_piece : ∀ {s xs}, Ok s → xs ≠ [] → xs.length < want s →
    want (piece s xs) = want s - xs.length
  piece_piece : ∀ {s xs ys}, Ok s → xs ≠ [] → ys ≠ [] → xs.length + ys.length ≤ want s →
    piece (piece s xs) ys = piece s (xs ++ ys)

namespace PieceReader

variable (r : PieceReader α σ)

def feedFrom : (fuel : Nat) → σ → List α → σ
  | 0, s, _ => s
  | _ + 1, s, [] => s
  | fuel + 1, s, x :: xs =>
    if r.want s = 0 then s
    else feedFrom fuel (r.piece s ((x :: xs).take (r.want s))) ((x :: xs).drop (r.want s))

/-- Pieces of the wanted lengths until the list or the reader has ended. Every piece shortens the
    list, so its length is fuel enough. -/
def feed (s : σ) (xs : List α) : σ := r.feedFrom xs.length s xs

@[simp] theorem feed_nil (s : σ) : r.feed s [] = s := rfl

theorem feedFrom_eq_feed (fuel : Nat) (s : σ) (xs : List α) (h : xs.length ≤ fuel) :
    r.feedFrom fuel s xs = r.feed s xs := by
  -- both sides take the same piece; behind it the fuel left still covers the list
  induction fuel using Nat.strongRecOn generalizing s xs with
  | _ fuel ih =>
    cases fuel with
    | zero =>
      obtain rfl : xs = [] := by simpa using h
      rfl
    | succ fuel =>
      cases xs with
      | nil => rfl
      | cons x xs =>
        rw [feed, List.length_cons, feedFrom, feedFrom]
        split
        · rfl
        · have hshort : ((x :: xs).drop (r.want s)).length ≤ xs.length := by
            rw [List.length_drop, List.length_cons]
            omega
          have hle : xs.length ≤ fuel := by simpa using h
          rw [ih fuel (by omega) _ _ (hshort.trans hle), ih xs.length (by omega) _ _ hshort]

variable {r} {s : σ} {xs ys : List α}

theorem feed_ended (h : r.want s = 0) : r.feed s xs = s := by
  cases xs with
  | nil => rfl
  | cons x xs => rw [feed, List.length_cons, feedFrom, if_pos h]

theorem feed_turn (hxs : xs ≠ []) (h : r.want s ≠ 0) :
    r.feed s xs = r.feed (r.piece s (xs.take (r.want s))) (xs.drop (r.want s)) := by
  cases xs with
  | nil => exact absurd rfl hxs
  | cons x xs =>
    rw [feed, List.length_cons, feedFrom, if_neg h, feedFrom_eq_feed]
    rw [List.length_drop, List.length_cons]
    omega

/-- Items that the reader wants are one piece. -/
theorem feed_piece (hxs : xs ≠ []) (h : xs.length ≤ r.want s) : r.feed s xs = r.piece s xs := by
  have hpos := List.length_pos_of_ne_nil hxs
  rw [feed_turn hxs (by omega), List.take_of_length_le h, List.drop_of_length_le h, feed_nil]

/-- A property that every wanted piece keeps. -/
theorem feed_induction {P : σ → Prop}
    (hpiece : ∀ {s xs}, P s → xs ≠ [] → xs.length ≤ r.want s → P (r.piece s xs)) (hs : P s) :
    P (r.feed s xs) := by
  induction hlen : xs.length using Nat.strongRecOn generalizing s xs with
  | _ n ih =>
    by_cases hxs : xs = []
    · rw [hxs]
      exact hs
    by_cases hw : r.want s = 0
    · rw [feed_ended hw]
      exact hs
    have hpos := List.length_pos_of_ne_nil hxs
    rw [feed_turn hxs hw]
    refine ih _ ?_ (hpiece hs ?_ (List.length_take_le _ _)) rfl
    · rw [List.length_drop]
      omega
    · simp [hw, hxs]

theorem feed_ok (hs : r.Ok s) : r.Ok (r.feed s xs) := feed_induction r.piece_ok hs

/-- Too few items do not end the reader. -/
theorem want_feed_of_lt (hs : r.Ok s) (h : xs.length < r.want s) :
    r.want (r.feed s xs) = r.want s - xs.length := by
  by_cases hxs : xs = []
  · rw [hxs]
    rfl
  · rw [feed_piece hxs h.le, r.want_piece hs hxs h]

/-- It does not matter in how many parts the items come. -/
theorem feed_append (hs : r.Ok s) : r.feed s (xs ++ ys) = r.feed (r.feed s xs) ys := by
  induction hlen : xs.length using Nat.strongRecOn generalizing s xs with
  | _ n ih =>
    by_cases hxs : xs = []
    · rw [hxs]
      rfl
    by_cases hys : ys = []
    · rw [hys, List.append_nil, feed_nil]
    by_cases hw : r.want s = 0
    · rw [feed_ended hw, feed_ended hw, feed_ended hw]
    have hpos := List.length_pos_of_ne_nil hxs
    rcases Nat.lt_or_ge xs.length (r.want s) with hlt | hge
    · -- the piece in flight starts in `xs` and goes on in `ys`
      have hrest : r.want (r.piece s xs) = r.want s - xs.length := r.want_piece hs hxs hlt
      have htake : ys.take (r.want s - xs.length) ≠ [] := by
        simp only [ne_eq, List.take_eq_nil_iff, hys, or_false]
        omega
      rw [feed_piece hxs hlt.le, feed_turn (by simp [hxs]) hw, feed_turn hys (by omega), hrest,
        List.take_append, List.drop_append, List.take_of_length_le hlt.le,
        List.drop_of_length_le hlt.le, List.nil_append,
        r.piece_piece hs hxs htake (by rw [List.length_take]; omega)]
    · have hle : (xs.take (r.want s)).length ≤ r.want s := List.length_take_le _ _
      have htake : xs.take (r.want s) ≠ [] := by simp [hw, hxs]
      rw [feed_turn (by simp [hxs]) hw, feed_turn hxs hw, List.take_append_of_le_length hge,
        List.drop_append_of_le_length hge]
      refine ih _ ?_ (r.piece_ok hs htake hle) rfl
      rw [List.length_drop]
      omega

/-! ## Reading no further than wanted -/

/-- Before the last item of `xs` the reader had not ended. -/
def Within (r : PieceReader α σ) (s : σ) (xs : List α) : Prop :=
  ∀ ys, ys <+: xs → ys ≠ xs → r.want (r.feed s ys) ≠ 0

theorem Within.nil : r.Within s [] := fun _ hpre hne => absurd (List.prefix_nil.mp hpre) hne

/-- What is wanted may be taken. -/
theorem Within.of_le (hs : r.Ok s) (hle : xs.length ≤ r.want s) : r.Within s xs := by
  intro ys hpre hne
  have hlt : ys.length < xs.length :=
    lt_of_le_of_ne hpre.length_le fun hlen => hne (hpre.eq_of_length hlen)
  rw [want_feed_of_lt hs (by omega)]
  omega

theorem Within.trans (hs : r.Ok s) (h : r.Within s xs) (h' : r.Within (r.feed s xs) ys) :
    r.Within s (xs ++ ys) := by
  intro zs hpre hne
  rcases le_total zs.length xs.length with hshort | hlong
  · have hzs : zs <+: xs := List.prefix_of_prefix_length_le hpre (List.prefix_append _ _) hshort
    by_cases heq : zs = xs
    · subst heq
      refine h' [] List.nil_prefix ?_
      rintro rfl
      simp at hne
    · exact h zs hzs heq
  · obtain ⟨vs, rfl⟩ := List.prefix_of_prefix_length_le (List.prefix_append _ _) hpre hlong
    rw [feed_append hs]
    refine h' vs ((List.prefix_append_right_inj xs).mp hpre) ?_
    rintro rfl
    exact hne rfl

theorem Within.append (hs : r.Ok s) (h : r.Within s xs) (hle : ys.length ≤ r.want (r.feed s xs)) :
    r.Within s (xs ++ ys) :=
  h.trans hs (.of_le (feed_ok hs) hle)

/-- A reading stays inside a message that ends the reader. -/
theorem Within.prefix_of_ended {ws : List α} (h : r.Within s xs) (hxs : xs <+: ws) (hys : ys <+: ws)
    (hend : r.want (r.feed s ys) = 0) : xs <+: ys := by
  rcases le_total xs.length ys.length with hle | hle
  · exact List.prefix_of_prefix_length_le hxs hys hle
  · by_cases heq : ys = xs
    · rw [heq]
    · exact absurd hend (h ys (List.prefix_of_prefix_length_le hys hxs hle) heq)

end PieceReader

end Cloak.Lib
