/-!
# Letter case

The case mappings of Unicode: the form of one character may be several.
-/

namespace JavaToGo.Text

/-- The code points `first, first + step, …, last`; the image of the first one is `image`, and the
others keep their distance. -/
structure CaseRun where
  first : Nat
  last : Nat
  step : Nat
  image : Nat
deriving DecidableEq, Repr

namespace CaseRun

def covers (r : CaseRun) (n : Nat) : Bool :=
  r.first ≤ n && n ≤ r.last && (n - r.first) % r.step == 0

def apply (r : CaseRun) (n : Nat) : Nat :=
  r.image + (n - r.first)

/-- The run from the images to the code points. -/
def inverse (r : CaseRun) : CaseRun :=
  ⟨r.image, r.apply r.last, r.step, r.first⟩

end CaseRun

/-- Letters with their capitals, in runs. -/
def capitalRuns : List CaseRun :=
  [⟨97,122,1,65⟩,⟨224,246,1,192⟩,⟨248,254,1,216⟩,⟨575,576,1,11390⟩,⟨598,599,1,393⟩,⟨650,651,1,433⟩,
    ⟨891,893,1,1021⟩,⟨941,943,1,904⟩,⟨945,961,1,913⟩,⟨963,971,1,931⟩,⟨973,974,1,910⟩,
    ⟨1072,1103,1,1040⟩,⟨1104,1119,1,1024⟩,⟨1377,1414,1,1329⟩,⟨4304,4346,1,7312⟩,⟨4349,4351,1,7357⟩,
    ⟨5112,5117,1,5104⟩,⟨7299,7300,1,1057⟩,⟨7936,7943,1,7944⟩,⟨7952,7957,1,7960⟩,⟨7968,7975,1,7976⟩,
    ⟨7984,7991,1,7992⟩,⟨8000,8005,1,8008⟩,⟨8017,8023,2,8025⟩,⟨8032,8039,1,8040⟩,⟨8048,8049,1,8122⟩,
    ⟨8050,8053,1,8136⟩,⟨8054,8055,1,8154⟩,⟨8056,8057,1,8184⟩,⟨8058,8059,1,8170⟩,⟨8060,8061,1,8186⟩,
    ⟨8112,8113,1,8120⟩,⟨8144,8145,1,8152⟩,⟨8160,8161,1,8168⟩,⟨8560,8575,1,8544⟩,⟨9424,9449,1,9398⟩,
    ⟨11312,11359,1,11264⟩,⟨11520,11557,1,4256⟩,⟨43888,43967,1,5024⟩,⟨65345,65370,1,65313⟩,
    ⟨66600,66639,1,66560⟩,⟨66776,66811,1,66736⟩,⟨66967,67003,2,66928⟩,⟨66968,66976,2,66929⟩,
    ⟨66980,66992,2,66941⟩,⟨66996,67000,2,66957⟩,⟨68800,68850,1,68736⟩,⟨71872,71903,1,71840⟩,
    ⟨93792,93823,1,93760⟩,⟨125218,125251,1,125184⟩]

/-- Single letters with their capitals. -/
def capitals : List (Nat × Nat) :=
  [(181,924),(255,376),(305,73),(383,83),(384,579),(405,502),(410,573),(414,544),(447,503),
    (454,452),(457,455),(460,458),(477,398),(499,497),(592,11375),(593,11373),(594,11376),(595,385),
    (596,390),(601,399),(603,400),(604,42923),(608,403),(609,42924),(611,404),(613,42893),
    (614,42922),(616,407),(617,406),(618,42926),(619,11362),(620,42925),(623,412),(625,11374),
    (626,413),(629,415),(637,11364),(640,422),(642,42949),(643,425),(647,42929),(648,430),(649,580),
    (652,581),(658,439),(669,42930),(670,42928),(837,921),(940,902),(962,931),(972,908),(976,914),
    (977,920),(981,934),(982,928),(983,975),(1008,922),(1009,929),(1010,1017),(1011,895),(1013,917),
    (1231,1216),(7296,1042),(7297,1044),(7298,1054),(7301,1058),(7302,1066),(7303,1122),
    (7304,42570),(7545,42877),(7549,11363),(7566,42950),(7835,7776),(8126,921),(8165,8172),
    (8526,8498),(11365,570),(11366,574),(11559,4295),(11565,4301),(42900,42948),(43859,42931),
    (67004,66965)]

/-- Runs in which each capital stands before its small letter. -/
def pairedRuns : List (Nat × Nat) :=
  [(256,303),(306,311),(313,328),(330,375),(377,382),(386,389),(391,392),(395,396),(401,402),
    (408,409),(416,421),(423,424),(428,429),(431,432),(435,438),(440,441),(444,445),(452,453),
    (455,456),(458,459),(461,476),(478,495),(497,498),(500,501),(504,543),(546,563),(571,572),
    (577,578),(582,591),(880,883),(886,887),(984,1007),(1015,1016),(1018,1019),(1120,1153),
    (1162,1215),(1217,1230),(1232,1327),(7680,7829),(7840,7935),(8579,8580),(11360,11361),
    (11367,11372),(11378,11379),(11381,11382),(11392,11491),(11499,11502),(11506,11507),
    (42560,42605),(42624,42651),(42786,42799),(42802,42863),(42873,42876),(42878,42887),
    (42891,42892),(42896,42899),(42902,42921),(42932,42947),(42951,42954),(42960,42961),
    (42966,42969),(42997,42998)]

def otherRuns : List CaseRun :=
  capitals.map (fun p => ⟨p.1, p.1, 1, p.2⟩) ++ pairedRuns.map fun p => ⟨p.1 + 1, p.2, 2, p.1⟩

def upperRuns : List CaseRun :=
  capitalRuns ++ otherRuns

def iotaRuns : List (Nat × Nat) :=
  [(8064,7944),(8072,7944),(8080,7976),(8088,7976),(8096,8040),(8104,8040)]

/-- Letters whose capital is written with several characters. -/
def upperExpansions : List (Nat × List Nat) :=
  [(223,[83,83]),(329,[700,78]),(496,[74,780]),(912,[921,776,769]),(944,[933,776,769]),
    (1415,[1333,1362]),(7830,[72,817]),(7831,[84,776]),(7832,[87,778]),(7833,[89,778]),
    (7834,[65,702]),(8016,[933,787]),(8018,[933,787,768]),(8020,[933,787,769]),(8022,[933,787,834]),
    (8114,[8122,921]),(8115,[913,921]),(8116,[902,921]),(8118,[913,834]),(8119,[913,834,921]),
    (8124,[913,921]),(8130,[8138,921]),(8131,[919,921]),(8132,[905,921]),(8134,[919,834]),
    (8135,[919,834,921]),(8140,[919,921]),(8146,[921,776,768]),(8147,[921,776,769]),
    (8150,[921,834]),(8151,[921,776,834]),(8162,[933,776,768]),(8163,[933,776,769]),
    (8164,[929,787]),(8166,[933,834]),(8167,[933,776,834]),(8178,[8186,921]),(8179,[937,921]),
    (8180,[911,921]),(8182,[937,834]),(8183,[937,834,921]),(8188,[937,921]),(64256,[70,70]),
    (64257,[70,73]),(64258,[70,76]),(64259,[70,70,73]),(64260,[70,70,76]),(64261,[83,84]),
    (64262,[83,84]),(64275,[1348,1350]),(64276,[1348,1333]),(64277,[1348,1339]),(64278,[1358,1350]),
    (64279,[1348,1341])]
    ++ iotaRuns.flatMap fun p => (List.range 8).map fun i => (p.1 + i,
    [p.2 + i,921])

/-- Capitals whose small form is not found by reading the capitals backwards. -/
def smallRuns : List CaseRun :=
  [⟨453,453,1,454⟩,⟨456,456,1,457⟩,⟨459,459,1,460⟩,⟨498,498,1,499⟩,⟨1012,1012,1,952⟩,
    ⟨1122,1122,1,1123⟩,⟨7776,7776,1,7777⟩,⟨7838,7838,1,223⟩,⟨8072,8079,1,8064⟩,⟨8088,8095,1,8080⟩,
    ⟨8104,8111,1,8096⟩,⟨8124,8124,1,8115⟩,⟨8140,8140,1,8131⟩,⟨8188,8188,1,8179⟩,⟨8486,8486,1,969⟩,
    ⟨8490,8490,1,107⟩,⟨8491,8491,1,229⟩,⟨42570,42570,1,42571⟩]

def lowerRuns : List CaseRun :=
  capitalRuns.map CaseRun.inverse ++ smallRuns ++ otherRuns.map CaseRun.inverse

/-- Small letters that are several characters. -/
def lowerExpansions : List (Nat × List Nat) :=
  [(304,[105,775])]

/-- Characters with a small letter that are no capitals. -/
def titleRanges : List (Nat × Nat) :=
  [(453,453),(456,456),(459,459),(498,498),(8072,8079),(8088,8095),(8104,8111),(8124,8124),
    (8140,8140),(8188,8188)]

/-- Capitals without a small form. -/
def capitalRanges : List (Nat × Nat) :=
  [(304,304),(978,980),(8450,8450),(8455,8455),(8459,8461),(8464,8466),(8469,8469),(8473,8477),
    (8484,8484),(8488,8488),(8492,8493),(8496,8497),(8499,8499),(8510,8511),(8517,8517),
    (119808,119833),(119860,119885),(119912,119937),(119964,119964),(119966,119967),(119970,119970),
    (119973,119974),(119977,119980),(119982,119989),(120016,120041),(120068,120069),(120071,120074),
    (120077,120084),(120086,120092),(120120,120121),(120123,120126),(120128,120132),(120134,120134),
    (120138,120144),(120172,120197),(120224,120249),(120276,120301),(120328,120353),(120380,120405),
    (120432,120457),(120488,120512),(120546,120570),(120604,120628),(120662,120686),(120720,120744),
    (120778,120778),(127280,127305),(127312,127337),(127344,127369)]

/-- The form of a character, by its expansion or by the run that covers it. -/
def caseForm (expansions : List (Nat × List Nat)) (runs : List CaseRun) (c : Char) : List Char :=
  match expansions.lookup c.toNat with
  | some ns => ns.map Char.ofNat
  | none =>
    match runs.find? (·.covers c.toNat) with
    | some r => [Char.ofNat (r.apply c.toNat)]
    | none => [c]

/-- The capital form of a character. -/
def upper (c : Char) : List Char :=
  caseForm upperExpansions upperRuns c

/-- The small form of a character. -/
def lower (c : Char) : List Char :=
  caseForm lowerExpansions lowerRuns c

def inRanges (ranges : List (Nat × Nat)) (n : Nat) : Bool :=
  ranges.any fun r => r.1 ≤ n && n ≤ r.2

/-- Whether a character is a capital; title forms are none. -/
def isUpper (c : Char) : Bool :=
  if lowerRuns.any (·.covers c.toNat) then !inRanges titleRanges c.toNat
  else inRanges capitalRanges c.toNat

def lowerAll (s : String) : String :=
  String.ofList (s.toList.flatMap lower)

def beginsUpper (s : String) : Bool :=
  match s.toList with
  | [] => false
  | c :: _ => isUpper c

end JavaToGo.Text
