import EasyTrade.Core.Table

/-!
# The offer service

`GET /api/offers/:platform` answers with the manager's packages and products, filtered as
the query of the request asks for.
-/

namespace EasyTrade.Offers

structure Package where
  id : ℤ
  name : String
  price : ℚ
  support : String
  deriving DecidableEq

structure Product where
  id : ℤ
  name : String
  ppt : ℚ
  currency : String
  deriving DecidableEq

/-- What the manager holds. -/
structure Catalogue where
  packages : Table Package.id
  products : Table Product.id

abbrev Query := List (String × String)

/-- The `platform` of the route and the query of a URL. -/
structure Url where
  platform : String
  query : Query
  deriving DecidableEq

/-- What the services take from the libraries of their languages. -/
structure Runtime where
  /-- `http.NewRequest` for a platform's name, when the URL is one and matches the route. -/
  url : String → Option Url
  /-- `fmt.Sprint` of a `float32`. -/
  sprint : ℚ → String
  /-- A number as it is read into a `float32`. -/
  float32 : ℚ → ℚ
  /-- `JSON.parse` of a list of names, which may throw. -/
  parse : String → Option (List String)
  /-- `Number`, which may be `NaN`. -/
  number : String → Option ℚ

/-! ## The filters -/

/-- The fee may be missing (`undefined`), and a fee that is there may be `NaN`. -/
structure PackageFilter where
  maxYearlyFee : Option (Option ℚ)

structure ProductFilter where
  productNames : Option (List String)

/-- No price is at most `NaN`. -/
def PackageFilter.keeps (filter : PackageFilter) (p : Package) : Bool :=
  match filter.maxYearlyFee with
  | none => true
  | some none => false
  | some (some maxYearlyFee) => p.price ≤ maxYearlyFee

def ProductFilter.keeps (filter : ProductFilter) (p : Product) : Bool :=
  match filter.productNames with
  | none => true
  | some productNames => productNames.contains p.name

def filterPackages (packages : List Package) (filter : PackageFilter) : List Package :=
  match filter.maxYearlyFee with
  | none => packages
  | some _ => packages.filter filter.keeps

def filterProducts (products : List Product) (filter : ProductFilter) : List Product :=
  match filter.productNames with
  | none => products
  | some _ => products.filter filter.keeps

theorem filterPackages_eq (packages : List Package) (filter : PackageFilter) :
    filterPackages packages filter = packages.filter filter.keeps := by
  unfold filterPackages
  cases hfee : filter.maxYearlyFee with
  | none =>
    have hall : ∀ p ∈ packages, filter.keeps p = true := fun p _ => by
      simp only [PackageFilter.keeps, hfee]
    exact (List.filter_eq_self.mpr hall).symm
  | some fee => rfl

theorem filterProducts_eq (products : List Product) (filter : ProductFilter) :
    filterProducts products filter = products.filter filter.keeps := by
  unfold filterProducts
  cases hnames : filter.productNames with
  | none =>
    have hall : ∀ p ∈ products, filter.keeps p = true := fun p _ => by
      simp only [ProductFilter.keeps, hnames]
    exact (List.filter_eq_self.mpr hall).symm
  | some names => rfl

/-- `EasyTradePackageProvider`: a manager that does not answer has no packages. -/
def getPackages (answer : Option (List Package)) (filter : PackageFilter) : List Package :=
  match answer with
  | none => []
  | some packages => filterPackages packages filter

/-- `EasyTradeProductProvider`. -/
def getProducts (answer : Option (List Product)) (filter : ProductFilter) : List Product :=
  match answer with
  | none => []
  | some products => filterProducts products filter

/-! ## The handler -/

structure Request where
  url : Url
  accept : Option String
  deriving DecidableEq

def Query.parameter (query : Query) (name : String) : Option String :=
  (query.find? fun entry => entry.1 = name).map Prod.snd

def maxYearlyFeeFilter (runtime : Runtime) (query : Query) : PackageFilter :=
  ⟨(Query.parameter query "maxYearlyFeeFilter").map runtime.number⟩

/-- `none` when `JSON.parse` throws. -/
def parsedProductFilter (runtime : Runtime) (query : Query) : Option ProductFilter :=
  match Query.parameter query "productFilter" with
  | none => some ⟨none⟩
  | some productFilter => (runtime.parse productFilter).map fun names => ⟨some names⟩

structure OfferData where
  platform : String
  quoteFor : String
  packages : List Package
  products : List Product

inductive Body
  | json (data : OfferData)
  | xml (data : OfferData)

structure Response where
  status : ℕ
  body : Body

def xmlMimeTypes : List String := ["application/xml", "text/xml"]

/-- The handler sends nothing when it throws. -/
def getOffers (runtime : Runtime) (packages : Option (List Package))
    (products : Option (List Product)) (req : Request) : Option Response := do
  let maxYearlyFee := maxYearlyFeeFilter runtime req.url.query
  let productNames ← parsedProductFilter runtime req.url.query
  let data : OfferData :=
    { platform := "EasyTrade"
      quoteFor := req.url.platform
      packages := getPackages packages maxYearlyFee
      products := getProducts products productNames }
  return ⟨200, if req.accept.any xmlMimeTypes.contains then .xml data else .json data⟩

end EasyTrade.Offers
