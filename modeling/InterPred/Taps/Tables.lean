/-!
# Coefficient tables

Row `i` of a table is the tap set of fractional position `i`; every row sums to 64.
-/

namespace InterPred.Taps

/-- 8-tap luma filter at sixteenth-sample positions. -/
def luma : List (List Int) := [
  [0, 0, 0, 64, 0, 0, 0, 0],
  [0, 1, -3, 63, 4, -2, 1, 0],
  [-1, 2, -5, 62, 8, -3, 1, 0],
  [-1, 3, -8, 60, 13, -4, 1, 0],
  [-1, 4, -10, 58, 17, -5, 1, 0],
  [-1, 4, -11, 52, 26, -8, 3, -1],
  [-1, 3, -9, 47, 31, -10, 4, -1],
  [-1, 4, -11, 45, 34, -10, 4, -1],
  [-1, 4, -11, 40, 40, -11, 4, -1],
  [-1, 4, -10, 34, 45, -11, 4, -1],
  [-1, 4, -10, 31, 47, -9, 3, -1],
  [-1, 3, -8, 26, 52, -11, 4, -1],
  [0, 1, -5, 17, 58, -10, 4, -1],
  [0, 1, -4, 13, 60, -8, 3, -1],
  [0, 1, -3, 8, 62, -5, 2, -1],
  [0, 1, -2, 4, 63, -3, 1, 0]]

def lumaAffine : List (List Int) := [
  [0, 0, 64, 0, 0, 0],
  [1, -3, 63, 4, -2, 1],
  [1, -5, 62, 8, -3, 1],
  [2, -8, 60, 13, -4, 1],
  [3, -10, 58, 17, -5, 1],
  [3, -11, 52, 26, -8, 2],
  [2, -9, 47, 31, -10, 3],
  [3, -11, 45, 34, -10, 3],
  [3, -11, 40, 40, -11, 3],
  [3, -10, 34, 45, -11, 3],
  [3, -10, 31, 47, -9, 2],
  [2, -8, 26, 52, -11, 3],
  [1, -5, 17, 58, -10, 3],
  [1, -4, 13, 60, -8, 2],
  [1, -3, 8, 62, -5, 1],
  [1, -2, 4, 63, -3, 1]]

/-- 4-tap chroma filter at thirty-second-sample positions. -/
def chroma : List (List Int) := [
  [0, 64, 0, 0],
  [-1, 63, 2, 0],
  [-2, 62, 4, 0],
  [-2, 60, 7, -1],
  [-2, 58, 10, -2],
  [-3, 57, 12, -2],
  [-4, 56, 14, -2],
  [-4, 55, 15, -2],
  [-4, 54, 16, -2],
  [-5, 53, 18, -2],
  [-6, 52, 20, -2],
  [-6, 49, 24, -3],
  [-6, 46, 28, -4],
  [-5, 44, 29, -4],
  [-4, 42, 30, -4],
  [-4, 39, 33, -4],
  [-4, 36, 36, -4],
  [-4, 33, 39, -4],
  [-4, 30, 42, -4],
  [-4, 29, 44, -5],
  [-4, 28, 46, -6],
  [-3, 24, 49, -6],
  [-2, 20, 52, -6],
  [-2, 18, 53, -5],
  [-2, 16, 54, -4],
  [-2, 15, 55, -4],
  [-2, 14, 56, -4],
  [-2, 12, 57, -3],
  [-2, 10, 58, -2],
  [-1, 7, 60, -2],
  [0, 4, 62, -2],
  [0, 2, 63, -1]]

def lumaResampleHalf : List (List Int) := [
  [-1, -5, 17, 42, 17, -5, -1, 0],
  [0, -5, 15, 41, 19, -5, -1, 0],
  [0, -5, 13, 40, 21, -4, -1, 0],
  [0, -5, 11, 39, 24, -4, -2, 1],
  [0, -5, 9, 38, 26, -3, -2, 1],
  [0, -5, 7, 38, 28, -2, -3, 1],
  [1, -5, 5, 36, 30, -1, -3, 1],
  [1, -4, 3, 35, 32, 0, -4, 1],
  [1, -4, 2, 33, 33, 2, -4, 1],
  [1, -4, 0, 32, 35, 3, -4, 1],
  [1, -3, -1, 30, 36, 5, -5, 1],
  [1, -3, -2, 28, 38, 7, -5, 0],
  [1, -2, -3, 26, 38, 9, -5, 0],
  [1, -2, -4, 24, 39, 11, -5, 0],
  [0, -1, -4, 21, 40, 13, -5, 0],
  [0, -1, -5, 19, 41, 15, -5, 0]]

def lumaResampleDouble : List (List Int) := [
  [-4, 2, 20, 28, 20, 2, -4, 0],
  [-4, 0, 19, 29, 21, 5, -4, -2],
  [-4, -1, 18, 29, 22, 6, -4, -2],
  [-4, -1, 16, 29, 23, 7, -4, -2],
  [-4, -1, 16, 28, 24, 7, -4, -2],
  [-4, -1, 14, 28, 25, 8, -4, -2],
  [-3, -3, 14, 27, 26, 9, -3, -3],
  [-3, -1, 12, 28, 25, 10, -4, -3],
  [-3, -3, 11, 27, 27, 11, -3, -3],
  [-3, -4, 10, 25, 28, 12, -1, -3],
  [-3, -3, 9, 26, 27, 14, -3, -3],
  [-2, -4, 8, 25, 28, 14, -1, -4],
  [-2, -4, 7, 24, 28, 16, -1, -4],
  [-2, -4, 7, 23, 29, 16, -1, -4],
  [-2, -4, 6, 22, 29, 18, -1, -4],
  [-2, -4, 5, 21, 29, 19, 0, -4]]

def chromaResampleHalf : List (List Int) := [
  [12, 40, 12, 0],
  [11, 40, 13, 0],
  [10, 40, 15, -1],
  [9, 40, 16, -1],
  [8, 40, 17, -1],
  [8, 39, 18, -1],
  [7, 39, 19, -1],
  [6, 38, 21, -1],
  [5, 38, 22, -1],
  [4, 38, 23, -1],
  [4, 37, 24, -1],
  [3, 36, 25, 0],
  [3, 35, 26, 0],
  [2, 34, 28, 0],
  [2, 33, 29, 0],
  [1, 33, 30, 0],
  [1, 31, 31, 1],
  [0, 30, 33, 1],
  [0, 29, 33, 2],
  [0, 28, 34, 2],
  [0, 26, 35, 3],
  [0, 25, 36, 3],
  [-1, 24, 37, 4],
  [-1, 23, 38, 4],
  [-1, 22, 38, 5],
  [-1, 21, 38, 6],
  [-1, 19, 39, 7],
  [-1, 18, 39, 8],
  [-1, 17, 40, 8],
  [-1, 16, 40, 9],
  [-1, 15, 40, 10],
  [0, 13, 40, 11]]

def chromaResampleDouble : List (List Int) := [
  [17, 30, 17, 0],
  [17, 30, 18, -1],
  [16, 30, 18, 0],
  [16, 30, 18, 0],
  [15, 30, 18, 1],
  [14, 30, 18, 2],
  [13, 29, 19, 3],
  [13, 29, 19, 3],
  [12, 29, 20, 3],
  [11, 28, 21, 4],
  [10, 28, 22, 4],
  [10, 27, 22, 5],
  [9, 27, 23, 5],
  [9, 26, 24, 5],
  [8, 26, 24, 6],
  [7, 26, 25, 6],
  [7, 25, 25, 7],
  [6, 25, 26, 7],
  [6, 24, 26, 8],
  [5, 24, 26, 9],
  [5, 23, 27, 9],
  [5, 22, 27, 10],
  [4, 22, 28, 10],
  [4, 21, 28, 11],
  [3, 20, 29, 12],
  [3, 19, 29, 13],
  [3, 19, 29, 13],
  [2, 18, 30, 14],
  [1, 18, 30, 15],
  [0, 18, 30, 16],
  [0, 18, 30, 16],
  [-1, 18, 30, 17]]

def lumaAffineResampleHalf : List (List Int) := [
  [-6, 17, 42, 17, -6, 0],
  [-5, 15, 41, 19, -6, 0],
  [-5, 13, 40, 21, -5, 0],
  [-5, 11, 39, 24, -5, 0],
  [-5, 9, 38, 26, -4, 0],
  [-5, 7, 38, 28, -4, 0],
  [-4, 5, 36, 30, -3, 0],
  [-3, 3, 35, 32, -3, 0],
  [-3, 2, 33, 33, -1, 0],
  [-3, 0, 32, 35, 0, 0],
  [-2, -1, 30, 36, 1, 0],
  [-2, -2, 28, 38, 2, 0],
  [-1, -3, 26, 38, 4, 0],
  [-1, -4, 24, 39, 6, 0],
  [0, -4, 21, 40, 7, 0],
  [0, -5, 19, 41, 9, 0]]

def lumaAffineResampleDouble : List (List Int) := [
  [-2, 20, 28, 20, -2, 0],
  [-4, 19, 29, 21, -1, 0],
  [-5, 18, 29, 22, 0, 0],
  [-5, 16, 29, 23, 1, 0],
  [-5, 16, 28, 24, 1, 0],
  [-5, 14, 28, 25, 2, 0],
  [-6, 14, 27, 26, 3, 0],
  [-4, 12, 28, 25, 3, 0],
  [-6, 11, 27, 27, 5, 0],
  [-5, 10, 25, 28, 6, 0],
  [-6, 9, 26, 27, 8, 0],
  [-6, 8, 25, 28, 9, 0],
  [-6, 7, 24, 28, 11, 0],
  [-6, 7, 23, 29, 11, 0],
  [-6, 6, 22, 29, 13, 0],
  [-6, 5, 21, 29, 15, 0]]

def bilinear : List (List Int) :=
  (List.range 16).map fun (i : Nat) => [64 - 4 * (i : Int), 4 * (i : Int)]

def lumaHalfPelAlternate : List Int := [0, 3, 9, 20, 20, 9, 3, 0]

theorem rows_sum :
    ∀ t ∈ [luma, lumaAffine, chroma, lumaResampleHalf, lumaResampleDouble, chromaResampleHalf,
      chromaResampleDouble, lumaAffineResampleHalf, lumaAffineResampleDouble, bilinear,
      [lumaHalfPelAlternate]], ∀ row ∈ t, row.foldl (· + ·) 0 = 64 := by
  decide

end InterPred.Taps
