import ErrorBars.Expr.Canonical
import ErrorBars.Formula.Reserved

/-!
# Known words

Words with a meaning of their own: reserved words, constants, functions, and many more names that
the notation keeps for itself and that no formula can calculate with.  A word that a caller gives as
a variable loses such a meaning, unless it is reserved.
-/

set_option autoImplicit false

namespace ErrorBars.Formula

/-- What a word means when it is not given as a variable. -/
inductive Meaning where
  /-- a word of the grammar -/
  | reserved
  /-- a number or an infinity -/
  | constant (e : Expr)
  /-- something that can be applied to arguments -/
  | callable
  /-- something that is neither a number nor can be applied -/
  | opaqueName
  /-- nothing: it is a variable -/
  | unknown

/-- The constants. -/
def constants : List (String × Expr) :=
  [("pi", Expr.pi), ("E", Expr.euler), ("I", Expr.imaginary), ("oo", Expr.infinity),
   ("zoo", Expr.complexInfinity), ("nan", Expr.undefined),
   ("GoldenRatio", .const .goldenRatio), ("EulerGamma", .const .eulerGamma),
   ("Catalan", .const .catalan), ("TribonacciConstant", .const .tribonacci)]

/-- Names that are kept and cannot be applied. -/
def opaqueNames : List String :=
  ["true", "false", "Q", "Reals", "Naturals", "Naturals0", "Integers", "Rationals", "Complexes",
   "ord0"]

/-- Names that can be applied, in alphabetical order. -/
def callableText : String :=
  "Abs AccumBounds Add Adjoint AlgebraicField AlgebraicNumber And AppliedPredicate Array " ++
  "AssumptionsContext Atom AtomicExpr BasePolynomialError Basic BlockDiagMatrix " ++
  "BlockMatrix CC CRootOf Chi Ci Circle CoercionFailed Complement ComplexField " ++
  "ComplexRegion ComplexRootOf ComputationFailed ConditionSet Contains CosineTransform " ++
  "Curve DeferredVector DenseNDimArray Derivative Determinant DiagMatrix DiagonalMatrix " ++
  "DiagonalOf Dict DiracDelta DisjointUnion Domain DomainError DotProduct Dummy E1 EPath " ++
  "EX EXRAW Ei Eijk Ellipse EmptySequence EmptySet Eq Equality Equivalent EvaluationFailed " ++
  "ExactQuotientFailed Expr ExpressionDomain ExtraneousFactors FF FF_gmpy FF_python " ++
  "FallingFactorial FiniteField FiniteSet FlagError Float FourierTransform FractionField " ++
  "Function FunctionClass FunctionMatrix GF GMPYFiniteField GMPYIntegerRing " ++
  "GMPYRationalField Ge GeneratorsError GeneratorsNeeded GeometryError GramSchmidt " ++
  "GreaterThan GroebnerBasis Gt HadamardPower HadamardProduct HankelTransform Heaviside " ++
  "HeuristicGCDFailed HomomorphismFailed ITE Id Identity Idx ImageSet ImmutableDenseMatrix " ++
  "ImmutableDenseNDimArray ImmutableMatrix ImmutableSparseMatrix ImmutableSparseNDimArray " ++
  "Implies Indexed IndexedBase Integer IntegerRing Integral Intersection Interval Inverse " ++
  "InverseCosineTransform InverseFourierTransform InverseHankelTransform " ++
  "InverseLaplaceTransform InverseMellinTransform InverseSineTransform IsomorphismFailed " ++
  "KroneckerDelta KroneckerProduct LC LM LT Lambda LambertW LaplaceTransform Le LessThan " ++
  "LeviCivita Li Limit Line Line2D Line3D Lt MatAdd MatMul MatPow Matrix MatrixBase " ++
  "MatrixExpr MatrixPermute MatrixSlice MatrixSymbol Max MellinTransform Min Mod Monomial " ++
  "Mul MultivariatePolynomialError MutableDenseMatrix MutableDenseNDimArray MutableMatrix " ++
  "MutableSparseMatrix MutableSparseNDimArray N NDimArray Nand Ne NonSquareMatrixError Nor " ++
  "Not NotAlgebraic NotInvertible NotReversible Number NumberSymbol O OmegaPower OneMatrix " ++
  "OperationNotSupported OptionError Options Or Order Ordinal POSform Parabola Permanent " ++
  "PermutationMatrix Piecewise Plane Point Point2D Point3D PoleError PolificationFailed " ++
  "Poly Polygon PolynomialDivisionFailed PolynomialError PolynomialRing Pow PowerSet " ++
  "PrecisionExhausted Predicate Product ProductSet PurePoly PythonFiniteField " ++
  "PythonIntegerRing PythonRational QQ QQ_I QQ_gmpy QQ_python Quaternion RR Range Rational " ++
  "RationalField Ray Ray2D Ray3D RealField RealNumber RefinementFailed RegularPolygon Rel " ++
  "Rem RisingFactorial RootOf RootSum S SOPform Segment Segment2D Segment3D SeqAdd " ++
  "SeqFormula SeqMul SeqPer Set ShapeError Shi Si Sieve SineTransform SingularityFunction " ++
  "SparseMatrix SparseNDimArray StrPrinter StrictGreaterThan StrictLessThan Subs Sum " ++
  "Symbol SymmetricDifference SympifyError TableForm Trace Transpose Triangle Tuple " ++
  "Unequality UnevaluatedExpr UnificationFailed Union UnivariatePolynomialError " ++
  "UniversalSet Wild WildFunction Xor Ynm Ynm_c ZZ ZZ_I ZZ_gmpy ZZ_python ZeroMatrix Znm " ++
  "__build_class__ __import__ abs abundance acos acosh acot acoth acsc acsch adjoint " ++
  "airyai airyaiprime airybi airybiprime aiter all all_roots andre anext any apart " ++
  "apart_list appellf1 apply_finite_diff approximants are_similar arg arity ascii asec " ++
  "asech asin asinh ask assemble_partfrac_list assoc_laguerre assoc_legendre assuming atan " ++
  "atan2 atanh banded bell bernoulli besseli besselj besselk besselsimp bessely beta " ++
  "betainc betainc_regularized bin binomial binomial_coefficients " ++
  "binomial_coefficients_list block_collapse blockcut bool_map bottom_up breakpoint " ++
  "bspline_basis bspline_basis_set cacheit callable cancel capture carmichael cartes " ++
  "casoratian catalan cbrt ccode ceiling centroid chebyshevt chebyshevt_poly " ++
  "chebyshevt_root chebyshevu chebyshevu_poly chebyshevu_root check_assumptions " ++
  "checkodesol checkpdesol checksol chr classify_ode classify_pde closest_points cofactors " ++
  "collect collect_const combsimp comp compile compose composite compositepi conjugate " ++
  "construct_domain content continued_fraction continued_fraction_convergents " ++
  "continued_fraction_iterator continued_fraction_periodic continued_fraction_reduce " ++
  "convex_hull convolution cos cosh cosine_transform cot coth count_ops count_roots " ++
  "covering_product csc csch cse cxxcode cycle_length cyclotomic_poly decompogen decompose " ++
  "default_sort_key deg degree degree_list delattr denom derive_by_array det det_quick " ++
  "diag diagonalize_vector dict_merge diff difference_delta differentiate_finite digamma " ++
  "diophantine dir dirichlet_eta discrete_log discriminant div divisor_count divisor_sigma " ++
  "divisors divmod doctest dotprint dsolve egyptian_fraction elliptic_e elliptic_f " ++
  "elliptic_k elliptic_pi epath erf erf2 erf2inv erfc erfcinv erfi erfinv euler " ++
  "euler_equations eval evalf evaluate exec exp exp_polar expand expand_complex " ++
  "expand_func expand_log expand_mul expand_multinomial expand_power_base expand_power_exp " ++
  "expand_trig expint exptrigsimp exquo eye factor factor_cache factor_list factor_nc " ++
  "factor_system factor_terms factorial factorial2 factorint factorrat failing_assumptions " ++
  "farthest_points fcode ff fft fibonacci field field_isomorphism filldedent " ++
  "finite_diff_weights flatten floor format fourier_series fourier_transform fps frac " ++
  "fraction fresnelc fresnels fu fwht galois_group gamma gammasimp gcd gcd_list gcd_terms " ++
  "gcdex gegenbauer genocchi get_contraction_structure get_indices getattr gff gff_list " ++
  "globals glsl_code grevlex grlex groebner ground_roots group gruntz hadamard_product " ++
  "half_gcdex hankel1 hankel2 hankel_transform harmonic has_dups has_variety hasattr hash " ++
  "hermite hermite_poly hermite_prob hermite_prob_poly hessian hex hn1 hn2 " ++
  "homogeneous_order horner hyper hyperexpand hypersimilar hypersimp id idiff ifft ifwht " ++
  "igcd igrevlex igrlex ilcm ilex im imageset init_printing init_session input integer_log " ++
  "integer_nthroot integrate interactive_traversal interpolate interpolating_poly " ++
  "interpolating_spline intersecting_product intersection intervals intt inv_quick " ++
  "inverse_cosine_transform inverse_fourier_transform inverse_hankel_transform " ++
  "inverse_laplace_transform inverse_mellin_transform inverse_mobius_transform " ++
  "inverse_sine_transform invert is_abundant is_amicable is_carmichael is_convex " ++
  "is_decreasing is_deficient is_increasing is_mersenne_prime is_monotonic " ++
  "is_nthpow_residue is_perfect is_primitive_root is_quad_residue is_strictly_decreasing " ++
  "is_strictly_increasing is_zero_dimensional isinstance isolate isprime issubclass iter " ++
  "itermonomials jacobi jacobi_normalized jacobi_poly jacobi_symbol jn jn_zeros " ++
  "jordan_cell jscode julia_code kronecker_product kronecker_symbol kroneckersimp laguerre " ++
  "laguerre_poly lambdify laplace_correspondence laplace_initial_conds laplace_transform " ++
  "latex lcm lcm_list legendre legendre_poly legendre_symbol len lerchphi lex li limit " ++
  "limit_seq line_integrate linear_eq_to_matrix linsolve list2numpy ln locals log " ++
  "logcombine loggamma lowergamma lucas maple_code marcumq mathematica_code mathieuc " ++
  "mathieucprime mathieus mathieusprime mathml matrix2numpy matrix_multiply_elementwise " ++
  "matrix_symbols max maximum meijerg mellin_transform memoize_property " ++
  "mersenne_prime_exponent min minimal_polynomial minimum minpoly mobius mobius_transform " ++
  "mod_inverse monic motzkin multigamma multiline_latex multinomial_coefficients " ++
  "multiplicity n_order next nextprime nfloat nonlinsolve not_empty_in npartitions nroots " ++
  "nsimplify nsolve nth_power_roots_poly nthroot_mod ntt num_digits numbered_symbols numer " ++
  "oct octave_code ode_order ones open ord ordered pager_print parallel_poly_from_expr " ++
  "parse_expr partition pde_separate pde_separate_add pde_separate_mul pdiv pdsolve per " ++
  "perfect_power periodic_argument periodicity permutedims pexquo piecewise_exclusive " ++
  "piecewise_fold plot plot_implicit plot_parametric polar_lift polarify pollard_pm1 " ++
  "pollard_rho poly poly_from_expr polygamma polylog polynomial_congruence posify " ++
  "postfixes postorder_traversal pow powdenest powsimp pprint pprint_try_use_unicode " ++
  "pprint_use_unicode pquo prefixes prem preorder_traversal pretty pretty_print preview " ++
  "prevprime prime prime_decomp prime_valuation primefactors primenu primeomega primepi " ++
  "primerange primitive primitive_element primitive_root primorial principal_branch print " ++
  "print_ccode print_fcode print_glsl print_gtk print_jscode print_latex print_maple_code " ++
  "print_mathml print_python print_rcode print_tree prod product proper_divisor_count " ++
  "proper_divisors public pycode python quadratic_congruence quadratic_residues quo rad " ++
  "radsimp randMatrix random_poly randprime rational_interpolate ratsimp ratsimpmodprime " ++
  "rcode rcollect re real_root real_roots reduce_abs_inequalities reduce_abs_inequality " ++
  "reduce_inequalities reduced reduced_totient refine refine_root register_handler rem " ++
  "remove_handler repr reshape residue resultant rf riemann_xi ring root rootof roots " ++
  "rot_axis1 rot_axis2 rot_axis3 rot_ccw_axis1 rot_ccw_axis2 rot_ccw_axis3 rot_givens " ++
  "rotations round round_two rsolve rsolve_hyper rsolve_poly rsolve_ratio rust_code " ++
  "satisfiable sec sech separatevars sequence series setattr seterr sfield shape sift sign " ++
  "signsimp simplify simplify_logic sin sinc sine_transform singularities " ++
  "singularityintegrate sinh smtlib_code solve solve_linear solve_linear_system " ++
  "solve_linear_system_LU solve_poly_inequality solve_poly_system " ++
  "solve_rational_inequalities solve_triangulated solve_undetermined_coeffs " ++
  "solve_univariate_inequality solveset sorted sqf sqf_list sqf_norm sqf_part sqrt " ++
  "sqrt_mod sqrt_mod_iter sqrtdenest srepr sring sstr sstrrepr stationary_points stieltjes " ++
  "sturm subfactorial subresultants subsets substitution sum summation " ++
  "swinnerton_dyer_poly symarray symbols symmetric_poly symmetrize sympify take tan tanh " ++
  "tensorcontraction tensordiagonal tensorproduct terms_gcd test textplot threaded timed " ++
  "to_cnf to_dnf to_nnf to_number_field together topological_sort total_degree totient " ++
  "trace trailing transpose tribonacci trigamma trigsimp trunc unbranched_argument " ++
  "unflatten unpolarify uppergamma use var variations vars vectorize vfield viete vring " ++
  "wronskian xfield xring xthreaded yn zeros zeta"

/-- Names that can be applied. -/
def callableNames : List String := callableText.splitOn " "

/-- What a word means when it is not given as a variable. -/
def meaning (word : String) : Meaning :=
  if reservedWords.contains word then .reserved
  else
    match constants.lookup word with
    | some e => .constant e
    | none =>
      if callableNames.contains word then .callable
      else if opaqueNames.contains word then .opaqueName
      else .unknown

end ErrorBars.Formula
