import BeanCatalog.Proofs.Url.Escapes
import BeanCatalog.Resource.Location
import Mathlib.Data.List.TakeWhile

namespace BeanCatalog

def isBreak (c : Char) : Bool := c == '\t' || c == '\n' || c == '\r'

structure PlainInUrl (s : String) : Prop where
  noEscape : '%' ∉ s.toList
  noQuery : '?' ∉ s.toList
  noFragment : '#' ∉ s.toList
  noBreak : ∀ c ∈ s.toList, isBreak c = false

theorem noBreak_of_any {s : String} (h : s.toList.any isBreak = false) :
    ∀ c ∈ s.toList, isBreak c = false :=
  fun c hc => Bool.eq_false_iff.mpr (List.any_eq_false.mp h c hc)

namespace Url

theorem fileUrl_toList (path : String) :
    ("file://" ++ path).toList = 'f' :: ("ile://".toList ++ path.toList) := by
  rw [String.toList_append]
  rfl

theorem clean_fileUrl {path : String} (h : ∀ c ∈ path.toList, isBreak c = false) :
    clean ("file://" ++ path).toList = ("file://" ++ path).toList := by
  have hkept : ∀ c ∈ ("file://" ++ path).toList, isBreak c = false := by
    intro c hc
    rw [String.toList_append] at hc
    rcases List.mem_append.mp hc with hc | hc
    · have hscheme : ("file://".toList.all fun d => !isBreak d) = true := by decide
      simpa using List.all_eq_true.mp hscheme c hc
    · exact h c hc
  rw [fileUrl_toList] at hkept ⊢
  rw [clean, List.dropWhile_cons_of_neg (by decide)]
  apply List.filter_eq_self.mpr
  intro c hc
  have hbreak := hkept c hc
  simp only [isBreak, Bool.or_eq_false_iff, beq_eq_false_iff_ne] at hbreak
  simp [hbreak]

theorem split_fileUrl {path : String} (hr : path.toList.head? = some '/')
    (h : ∀ c ∈ path.toList, isBreak c = false) :
    split ("file://" ++ path) =
      .ok ⟨"file", "", String.ofList (path.toList.takeWhile fun c => c != '?' && c != '#')⟩ := by
  obtain ⟨cs, hcs⟩ := List.head?_eq_some_iff.mp hr
  rw [split, clean_fileUrl h, fileUrl_toList, hcs]
  rfl

end Url

namespace Percent

theorem head?_encode {s : String} (h : s.toList.head? = some '/') :
    (encode s).toList.head? = some '/' := by
  obtain ⟨cs, hcs⟩ := List.head?_eq_some_iff.mp h
  have hs : s = "/" ++ String.ofList cs := by
    rw [← String.toList_inj, hcs]
    simp
  rw [hs, encode_append, String.toList_append]
  rfl

end Percent

namespace Location

theorem toPath_fileUrl {front rest : String} (hr : (front ++ rest).toList.head? = some '/')
    (h : PlainInUrl rest) :
    toPath ("file://" ++ (Percent.encode front ++ rest)) = .ok (front ++ rest) := by
  have hfile : ("file://" ++ (Percent.encode front ++ rest)).startsWith filePrefix = true := by
    rw [String.startsWith_string_iff, String.toList_append]
    exact ⟨"//".toList ++ (Percent.encode front ++ rest).toList, rfl⟩
  have hmem : ∀ c ∈ (Percent.encode front ++ rest).toList, Percent.occurs c = true ∨ c ∈ rest.toList := by
    intro c hc
    rw [String.toList_append] at hc
    exact (List.mem_append.mp hc).imp_left Percent.occurs_of_mem_encode
  have hbreak : ∀ c ∈ (Percent.encode front ++ rest).toList, isBreak c = false := by
    intro c hc
    rcases hmem c hc with hc | hc
    · cases hb : isBreak c with
      | false => rfl
      | true =>
        simp only [isBreak, Bool.or_eq_true, beq_iff_eq] at hb
        rcases hb with (rfl | rfl) | rfl <;> cases hc
    · exact h.noBreak c hc
  have hwhole : (Percent.encode front ++ rest).toList.takeWhile (fun c => c != '?' && c != '#') =
      (Percent.encode front ++ rest).toList := by
    apply List.takeWhile_eq_self_iff.mpr
    intro c hc
    rw [Bool.and_eq_true, bne_iff_ne, bne_iff_ne]
    rcases hmem c hc with hc | hc
    · constructor <;> rintro rfl <;> cases hc
    · exact ⟨fun he => h.noQuery (he ▸ hc), fun he => h.noFragment (he ▸ hc)⟩
  have hrooted : (Percent.encode front ++ rest).toList.head? = some '/' := by
    rw [String.toList_append] at hr ⊢
    by_cases hf : front.toList = []
    · rw [hf, List.nil_append] at hr
      have hnone : (Percent.encode front).toList = [] := by
        rw [Percent.encode, Text.Utf8.encode, hf]
        rfl
      rw [hnone, List.nil_append, hr]
    · rw [List.head?_append_of_ne_nil _ hf] at hr
      rw [List.head?_append, Percent.head?_encode hr]
      rfl
  rw [toPath, if_pos hfile, Url.split_fileUrl hrooted hbreak, hwhole]
  simp only [Except.mapError, Except.map, String.ofList_toList]
  rw [Percent.decode_encode_append h.noEscape]

end Location

end BeanCatalog
