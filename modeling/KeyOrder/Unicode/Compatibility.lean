import KeyOrder.Unicode.Table

/-!
# The compatibility form of identifiers

Two spellings of an identifier are the same name when they agree after compatibility
decomposition, canonical ordering of marks, and canonical composition.  The tables hold what
identifier characters need; the syllables of Hangul are computed.
-/

namespace KeyOrder.Unicode

/-- Full compatibility decompositions. -/
def decompositions : Table := Table.ofLines
  ["aa>61 b5>3bc ba>6f c0>41,300 c1>41,301 c2>41,302 c3>41,303 c4>41,308 c5>41,30a c7>43,327",
   "c8>45,300 c9>45,301 ca>45,302 cb>45,308 cc>49,300 cd>49,301 ce>49,302 cf>49,308 d1>4e,303",
   "d2>4f,300 d3>4f,301 d4>4f,302 d5>4f,303 d6>4f,308 d9>55,300 da>55,301 db>55,302 dc>55,308",
   "dd>59,301 e0>61,300 e1>61,301 e2>61,302 e3>61,303 e4>61,308 e5>61,30a e7>63,327 e8>65,300",
   "e9>65,301 ea>65,302 eb>65,308 ec>69,300 ed>69,301 ee>69,302 ef>69,308 f1>6e,303 f2>6f,300",
   "f3>6f,301 f4>6f,302 f5>6f,303 f6>6f,308 f9>75,300 fa>75,301 fb>75,302 fc>75,308 fd>79,301",
   "ff>79,308 100>41,304 101>61,304 102>41,306 103>61,306 104>41,328 105>61,328 106>43,301",
   "107>63,301 108>43,302 109>63,302 10a>43,307 10b>63,307 10c>43,30c 10d>63,30c 10e>44,30c",
   "10f>64,30c 112>45,304 113>65,304 114>45,306 115>65,306 116>45,307 117>65,307 118>45,328",
   "119>65,328 11a>45,30c 11b>65,30c 11c>47,302 11d>67,302 11e>47,306 11f>67,306 120>47,307",
   "121>67,307 122>47,327 123>67,327 124>48,302 125>68,302 128>49,303 129>69,303 12a>49,304",
   "12b>69,304 12c>49,306 12d>69,306 12e>49,328 12f>69,328 130>49,307 132>49,4a 133>69,6a",
   "134>4a,302 135>6a,302 136>4b,327 137>6b,327 139>4c,301 13a>6c,301 13b>4c,327 13c>6c,327",
   "13d>4c,30c 13e>6c,30c 13f>4c,b7 140>6c,b7 143>4e,301 144>6e,301 145>4e,327 146>6e,327",
   "147>4e,30c 148>6e,30c 149>2bc,6e 14c>4f,304 14d>6f,304 14e>4f,306 14f>6f,306 150>4f,30b",
   "151>6f,30b 154>52,301 155>72,301 156>52,327 157>72,327 158>52,30c 159>72,30c 15a>53,301",
   "15b>73,301 15c>53,302 15d>73,302 15e>53,327 15f>73,327 160>53,30c 161>73,30c 162>54,327",
   "163>74,327 164>54,30c 165>74,30c 168>55,303 169>75,303 16a>55,304 16b>75,304 16c>55,306",
   "16d>75,306 16e>55,30a 16f>75,30a 170>55,30b 171>75,30b 172>55,328 173>75,328 174>57,302",
   "175>77,302 176>59,302 177>79,302 178>59,308 179>5a,301 17a>7a,301 17b>5a,307 17c>7a,307",
   "17d>5a,30c 17e>7a,30c 17f>73 1a0>4f,31b 1a1>6f,31b 1af>55,31b 1b0>75,31b 1c4>44,5a,30c",
   "1c5>44,7a,30c 1c6>64,7a,30c 1c7>4c,4a 1c8>4c,6a 1c9>6c,6a 1ca>4e,4a 1cb>4e,6a 1cc>6e,6a",
   "1cd>41,30c 1ce>61,30c 1cf>49,30c 1d0>69,30c 1d1>4f,30c 1d2>6f,30c 1d3>55,30c 1d4>75,30c",
   "1d5>55,308,304 1d6>75,308,304 1d7>55,308,301 1d8>75,308,301 1d9>55,308,30c 1da>75,308,30c",
   "1db>55,308,300 1dc>75,308,300 1de>41,308,304 1df>61,308,304 1e0>41,307,304 1e1>61,307,304",
   "1e2>c6,304 1e3>e6,304 1e6>47,30c 1e7>67,30c 1e8>4b,30c 1e9>6b,30c 1ea>4f,328 1eb>6f,328",
   "1ec>4f,328,304 1ed>6f,328,304 1ee>1b7,30c 1ef>292,30c 1f0>6a,30c 1f1>44,5a 1f2>44,7a",
   "1f3>64,7a 1f4>47,301 1f5>67,301 1f8>4e,300 1f9>6e,300 1fa>41,30a,301 1fb>61,30a,301",
   "1fc>c6,301 1fd>e6,301 1fe>d8,301 1ff>f8,301 200>41,30f 201>61,30f 202>41,311 203>61,311",
   "204>45,30f 205>65,30f 206>45,311 207>65,311 208>49,30f 209>69,30f 20a>49,311 20b>69,311",
   "20c>4f,30f 20d>6f,30f 20e>4f,311 20f>6f,311 210>52,30f 211>72,30f 212>52,311 213>72,311",
   "214>55,30f 215>75,30f 216>55,311 217>75,311 218>53,326 219>73,326 21a>54,326 21b>74,326",
   "21e>48,30c 21f>68,30c 226>41,307 227>61,307 228>45,327 229>65,327 22a>4f,308,304",
   "22b>6f,308,304 22c>4f,303,304 22d>6f,303,304 22e>4f,307 22f>6f,307 230>4f,307,304",
   "231>6f,307,304 232>59,304 233>79,304 2b0>68 2b1>266 2b2>6a 2b3>72 2b4>279 2b5>27b 2b6>281",
   "2b7>77 2b8>79 2e0>263 2e1>6c 2e2>73 2e3>78 2e4>295 340-341>300 343>313 344>308,301 374>2b9",
   "386>391,301 387>b7 388>395,301 389>397,301 38a>399,301 38c>39f,301 38e>3a5,301 38f>3a9,301",
   "390>3b9,308,301 3aa>399,308 3ab>3a5,308 3ac>3b1,301 3ad>3b5,301 3ae>3b7,301 3af>3b9,301",
   "3b0>3c5,308,301 3ca>3b9,308 3cb>3c5,308 3cc>3bf,301 3cd>3c5,301 3ce>3c9,301 3d0>3b2 3d1>3b8",
   "3d2>3a5 3d3>3a5,301 3d4>3a5,308 3d5>3c6 3d6>3c0 3f0>3ba 3f1-3f2>3c1 3f4>398 3f5>3b5 3f9>3a3",
   "400>415,300 401>415,308 403>413,301 407>406,308 40c>41a,301 40d>418,300 40e>423,306",
   "419>418,306 439>438,306 450>435,300 451>435,308 453>433,301 457>456,308 45c>43a,301",
   "45d>438,300 45e>443,306 476>474,30f 477>475,30f 4c1>416,306 4c2>436,306 4d0>410,306",
   "4d1>430,306 4d2>410,308 4d3>430,308 4d6>415,306 4d7>435,306 4da>4d8,308 4db>4d9,308",
   "4dc>416,308 4dd>436,308 4de>417,308 4df>437,308 4e2>418,304 4e3>438,304 4e4>418,308",
   "4e5>438,308 4e6>41e,308 4e7>43e,308 4ea>4e8,308 4eb>4e9,308 4ec>42d,308 4ed>44d,308",
   "4ee>423,304 4ef>443,304 4f0>423,308 4f1>443,308 4f2>423,30b 4f3>443,30b 4f4>427,308",
   "4f5>447,308 4f8>42b,308 4f9>44b,308 587>565,582 622>627,653 623>627,654 624>648,654",
   "625>627,655 626>64a,654 675>627,674 676>648,674 677>6c7,674 678>64a,674 6c0>6d5,654",
   "6c2>6c1,654 6d3>6d2,654 929>928,93c 931>930,93c 934>933,93c 958>915,93c 959>916,93c",
   "95a>917,93c 95b>91c,93c 95c>921,93c 95d>922,93c 95e>92b,93c 95f>92f,93c 9cb>9c7,9be",
   "9cc>9c7,9d7 9dc>9a1,9bc 9dd>9a2,9bc 9df>9af,9bc a33>a32,a3c a36>a38,a3c a59>a16,a3c",
   "a5a>a17,a3c a5b>a1c,a3c a5e>a2b,a3c b48>b47,b56 b4b>b47,b3e b4c>b47,b57 b5c>b21,b3c",
   "b5d>b22,b3c b94>b92,bd7 bca>bc6,bbe bcb>bc7,bbe bcc>bc6,bd7 c48>c46,c56 cc0>cbf,cd5",
   "cc7>cc6,cd5 cc8>cc6,cd6 cca>cc6,cc2 ccb>cc6,cc2,cd5 d4a>d46,d3e d4b>d47,d3e d4c>d46,d57",
   "dda>dd9,dca ddc>dd9,dcf ddd>dd9,dcf,dca dde>dd9,ddf e33>e4d,e32 eb3>ecd,eb2 edc>eab,e99",
   "edd>eab,ea1 f43>f42,fb7 f4d>f4c,fb7 f52>f51,fb7 f57>f56,fb7 f5c>f5b,fb7 f69>f40,fb5",
   "f73>f71,f72 f75>f71,f74 f76>fb2,f80 f77>fb2,f71,f80 f78>fb3,f80 f79>fb3,f71,f80 f81>f71,f80",
   "f93>f92,fb7 f9d>f9c,fb7 fa2>fa1,fb7 fa7>fa6,fb7 fac>fab,fb7 fb9>f90,fb5 1026>1025,102e",
   "10fc>10dc 1b06>1b05,1b35 1b08>1b07,1b35 1b0a>1b09,1b35 1b0c>1b0b,1b35 1b0e>1b0d,1b35",
   "1b12>1b11,1b35 1b3b>1b3a,1b35 1b3d>1b3c,1b35 1b40>1b3e,1b35 1b41>1b3f,1b35 1b43>1b42,1b35",
   "1d2c>41 1d2d>c6 1d2e-1d30/2>42 1d31>45 1d32>18e 1d33-1d3a>47 1d3c>4f 1d3d>222 1d3e>50",
   "1d3f>52 1d40-1d41>54 1d42>57 1d43>61 1d44-1d45>250 1d46>1d02 1d47>62 1d48-1d49>64 1d4a>259",
   "1d4b-1d4c>25b 1d4d>67 1d4f>6b 1d50>6d 1d51>14b 1d52>6f 1d53>254 1d54-1d55>1d16 1d56>70",
   "1d57-1d58>74 1d59>1d1d 1d5a>26f 1d5b>76 1d5c>1d25 1d5d-1d5f>3b2 1d60-1d61>3c6 1d62>69",
   "1d63>72 1d64-1d65>75 1d66-1d67>3b2 1d68>3c1 1d69-1d6a>3c6 1d78>43d 1d9b>252 1d9c>63 1d9d>255",
   "1d9e>f0 1d9f>25c 1da0>66 1da1>25f 1da2>261 1da3>265 1da4-1da6>268 1da7>1d7b 1da8>29d",
   "1da9>26d 1daa>1d85 1dab>29f 1dac>271 1dad>270 1dae-1db1>272 1db2>278 1db3-1db4>282 1db5>1ab",
   "1db6-1db7>289 1db8>1d1c 1db9-1dba>28b 1dbb>7a 1dbc-1dbe>290 1dbf>3b8 1e00>41,325 1e01>61,325",
   "1e02>42,307 1e03>62,307 1e04>42,323 1e05>62,323 1e06>42,331 1e07>62,331 1e08>43,327,301",
   "1e09>63,327,301 1e0a>44,307 1e0b>64,307 1e0c>44,323 1e0d>64,323 1e0e>44,331 1e0f>64,331",
   "1e10>44,327 1e11>64,327 1e12>44,32d 1e13>64,32d 1e14>45,304,300 1e15>65,304,300",
   "1e16>45,304,301 1e17>65,304,301 1e18>45,32d 1e19>65,32d 1e1a>45,330 1e1b>65,330",
   "1e1c>45,327,306 1e1d>65,327,306 1e1e>46,307 1e1f>66,307 1e20>47,304 1e21>67,304 1e22>48,307",
   "1e23>68,307 1e24>48,323 1e25>68,323 1e26>48,308 1e27>68,308 1e28>48,327 1e29>68,327",
   "1e2a>48,32e 1e2b>68,32e 1e2c>49,330 1e2d>69,330 1e2e>49,308,301 1e2f>69,308,301 1e30>4b,301",
   "1e31>6b,301 1e32>4b,323 1e33>6b,323 1e34>4b,331 1e35>6b,331 1e36>4c,323 1e37>6c,323",
   "1e38>4c,323,304 1e39>6c,323,304 1e3a>4c,331 1e3b>6c,331 1e3c>4c,32d 1e3d>6c,32d 1e3e>4d,301",
   "1e3f>6d,301 1e40>4d,307 1e41>6d,307 1e42>4d,323 1e43>6d,323 1e44>4e,307 1e45>6e,307",
   "1e46>4e,323 1e47>6e,323 1e48>4e,331 1e49>6e,331 1e4a>4e,32d 1e4b>6e,32d 1e4c>4f,303,301",
   "1e4d>6f,303,301 1e4e>4f,303,308 1e4f>6f,303,308 1e50>4f,304,300 1e51>6f,304,300",
   "1e52>4f,304,301 1e53>6f,304,301 1e54>50,301 1e55>70,301 1e56>50,307 1e57>70,307 1e58>52,307",
   "1e59>72,307 1e5a>52,323 1e5b>72,323 1e5c>52,323,304 1e5d>72,323,304 1e5e>52,331 1e5f>72,331",
   "1e60>53,307 1e61>73,307 1e62>53,323 1e63>73,323 1e64>53,301,307 1e65>73,301,307",
   "1e66>53,30c,307 1e67>73,30c,307 1e68>53,323,307 1e69>73,323,307 1e6a>54,307 1e6b>74,307",
   "1e6c>54,323 1e6d>74,323 1e6e>54,331 1e6f>74,331 1e70>54,32d 1e71>74,32d 1e72>55,324",
   "1e73>75,324 1e74>55,330 1e75>75,330 1e76>55,32d 1e77>75,32d 1e78>55,303,301 1e79>75,303,301",
   "1e7a>55,304,308 1e7b>75,304,308 1e7c>56,303 1e7d>76,303 1e7e>56,323 1e7f>76,323 1e80>57,300",
   "1e81>77,300 1e82>57,301 1e83>77,301 1e84>57,308 1e85>77,308 1e86>57,307 1e87>77,307",
   "1e88>57,323 1e89>77,323 1e8a>58,307 1e8b>78,307 1e8c>58,308 1e8d>78,308 1e8e>59,307",
   "1e8f>79,307 1e90>5a,302 1e91>7a,302 1e92>5a,323 1e93>7a,323 1e94>5a,331 1e95>7a,331",
   "1e96>68,331 1e97>74,308 1e98>77,30a 1e99>79,30a 1e9a>61,2be 1e9b>73,307 1ea0>41,323",
   "1ea1>61,323 1ea2>41,309 1ea3>61,309 1ea4>41,302,301 1ea5>61,302,301 1ea6>41,302,300",
   "1ea7>61,302,300 1ea8>41,302,309 1ea9>61,302,309 1eaa>41,302,303 1eab>61,302,303",
   "1eac>41,323,302 1ead>61,323,302 1eae>41,306,301 1eaf>61,306,301 1eb0>41,306,300",
   "1eb1>61,306,300 1eb2>41,306,309 1eb3>61,306,309 1eb4>41,306,303 1eb5>61,306,303",
   "1eb6>41,323,306 1eb7>61,323,306 1eb8>45,323 1eb9>65,323 1eba>45,309 1ebb>65,309 1ebc>45,303",
   "1ebd>65,303 1ebe>45,302,301 1ebf>65,302,301 1ec0>45,302,300 1ec1>65,302,300 1ec2>45,302,309",
   "1ec3>65,302,309 1ec4>45,302,303 1ec5>65,302,303 1ec6>45,323,302 1ec7>65,323,302 1ec8>49,309",
   "1ec9>69,309 1eca>49,323 1ecb>69,323 1ecc>4f,323 1ecd>6f,323 1ece>4f,309 1ecf>6f,309",
   "1ed0>4f,302,301 1ed1>6f,302,301 1ed2>4f,302,300 1ed3>6f,302,300 1ed4>4f,302,309",
   "1ed5>6f,302,309 1ed6>4f,302,303 1ed7>6f,302,303 1ed8>4f,323,302 1ed9>6f,323,302",
   "1eda>4f,31b,301 1edb>6f,31b,301 1edc>4f,31b,300 1edd>6f,31b,300 1ede>4f,31b,309",
   "1edf>6f,31b,309 1ee0>4f,31b,303 1ee1>6f,31b,303 1ee2>4f,31b,323 1ee3>6f,31b,323 1ee4>55,323",
   "1ee5>75,323 1ee6>55,309 1ee7>75,309 1ee8>55,31b,301 1ee9>75,31b,301 1eea>55,31b,300",
   "1eeb>75,31b,300 1eec>55,31b,309 1eed>75,31b,309 1eee>55,31b,303 1eef>75,31b,303",
   "1ef0>55,31b,323 1ef1>75,31b,323 1ef2>59,300 1ef3>79,300 1ef4>59,323 1ef5>79,323 1ef6>59,309",
   "1ef7>79,309 1ef8>59,303 1ef9>79,303 1f00>3b1,313 1f01>3b1,314 1f02>3b1,313,300",
   "1f03>3b1,314,300 1f04>3b1,313,301 1f05>3b1,314,301 1f06>3b1,313,342 1f07>3b1,314,342",
   "1f08>391,313 1f09>391,314 1f0a>391,313,300 1f0b>391,314,300 1f0c>391,313,301",
   "1f0d>391,314,301 1f0e>391,313,342 1f0f>391,314,342 1f10>3b5,313 1f11>3b5,314",
   "1f12>3b5,313,300 1f13>3b5,314,300 1f14>3b5,313,301 1f15>3b5,314,301 1f18>395,313",
   "1f19>395,314 1f1a>395,313,300 1f1b>395,314,300 1f1c>395,313,301 1f1d>395,314,301",
   "1f20>3b7,313 1f21>3b7,314 1f22>3b7,313,300 1f23>3b7,314,300 1f24>3b7,313,301",
   "1f25>3b7,314,301 1f26>3b7,313,342 1f27>3b7,314,342 1f28>397,313 1f29>397,314",
   "1f2a>397,313,300 1f2b>397,314,300 1f2c>397,313,301 1f2d>397,314,301 1f2e>397,313,342",
   "1f2f>397,314,342 1f30>3b9,313 1f31>3b9,314 1f32>3b9,313,300 1f33>3b9,314,300",
   "1f34>3b9,313,301 1f35>3b9,314,301 1f36>3b9,313,342 1f37>3b9,314,342 1f38>399,313",
   "1f39>399,314 1f3a>399,313,300 1f3b>399,314,300 1f3c>399,313,301 1f3d>399,314,301",
   "1f3e>399,313,342 1f3f>399,314,342 1f40>3bf,313 1f41>3bf,314 1f42>3bf,313,300",
   "1f43>3bf,314,300 1f44>3bf,313,301 1f45>3bf,314,301 1f48>39f,313 1f49>39f,314",
   "1f4a>39f,313,300 1f4b>39f,314,300 1f4c>39f,313,301 1f4d>39f,314,301 1f50>3c5,313",
   "1f51>3c5,314 1f52>3c5,313,300 1f53>3c5,314,300 1f54>3c5,313,301 1f55>3c5,314,301",
   "1f56>3c5,313,342 1f57>3c5,314,342 1f59>3a5,314 1f5b>3a5,314,300 1f5d>3a5,314,301",
   "1f5f>3a5,314,342 1f60>3c9,313 1f61>3c9,314 1f62>3c9,313,300 1f63>3c9,314,300",
   "1f64>3c9,313,301 1f65>3c9,314,301 1f66>3c9,313,342 1f67>3c9,314,342 1f68>3a9,313",
   "1f69>3a9,314 1f6a>3a9,313,300 1f6b>3a9,314,300 1f6c>3a9,313,301 1f6d>3a9,314,301",
   "1f6e>3a9,313,342 1f6f>3a9,314,342 1f70>3b1,300 1f71>3b1,301 1f72>3b5,300 1f73>3b5,301",
   "1f74>3b7,300 1f75>3b7,301 1f76>3b9,300 1f77>3b9,301 1f78>3bf,300 1f79>3bf,301 1f7a>3c5,300",
   "1f7b>3c5,301 1f7c>3c9,300 1f7d>3c9,301 1f80>3b1,313,345 1f81>3b1,314,345",
   "1f82>3b1,313,300,345 1f83>3b1,314,300,345 1f84>3b1,313,301,345 1f85>3b1,314,301,345",
   "1f86>3b1,313,342,345 1f87>3b1,314,342,345 1f88>391,313,345 1f89>391,314,345",
   "1f8a>391,313,300,345 1f8b>391,314,300,345 1f8c>391,313,301,345 1f8d>391,314,301,345",
   "1f8e>391,313,342,345 1f8f>391,314,342,345 1f90>3b7,313,345 1f91>3b7,314,345",
   "1f92>3b7,313,300,345 1f93>3b7,314,300,345 1f94>3b7,313,301,345 1f95>3b7,314,301,345",
   "1f96>3b7,313,342,345 1f97>3b7,314,342,345 1f98>397,313,345 1f99>397,314,345",
   "1f9a>397,313,300,345 1f9b>397,314,300,345 1f9c>397,313,301,345 1f9d>397,314,301,345",
   "1f9e>397,313,342,345 1f9f>397,314,342,345 1fa0>3c9,313,345 1fa1>3c9,314,345",
   "1fa2>3c9,313,300,345 1fa3>3c9,314,300,345 1fa4>3c9,313,301,345 1fa5>3c9,314,301,345",
   "1fa6>3c9,313,342,345 1fa7>3c9,314,342,345 1fa8>3a9,313,345 1fa9>3a9,314,345",
   "1faa>3a9,313,300,345 1fab>3a9,314,300,345 1fac>3a9,313,301,345 1fad>3a9,314,301,345",
   "1fae>3a9,313,342,345 1faf>3a9,314,342,345 1fb0>3b1,306 1fb1>3b1,304 1fb2>3b1,300,345",
   "1fb3>3b1,345 1fb4>3b1,301,345 1fb6>3b1,342 1fb7>3b1,342,345 1fb8>391,306 1fb9>391,304",
   "1fba>391,300 1fbb>391,301 1fbc>391,345 1fbe>3b9 1fc2>3b7,300,345 1fc3>3b7,345",
   "1fc4>3b7,301,345 1fc6>3b7,342 1fc7>3b7,342,345 1fc8>395,300 1fc9>395,301 1fca>397,300",
   "1fcb>397,301 1fcc>397,345 1fd0>3b9,306 1fd1>3b9,304 1fd2>3b9,308,300 1fd3>3b9,308,301",
   "1fd6>3b9,342 1fd7>3b9,308,342 1fd8>399,306 1fd9>399,304 1fda>399,300 1fdb>399,301",
   "1fe0>3c5,306 1fe1>3c5,304 1fe2>3c5,308,300 1fe3>3c5,308,301 1fe4>3c1,313 1fe5>3c1,314",
   "1fe6>3c5,342 1fe7>3c5,308,342 1fe8>3a5,306 1fe9>3a5,304 1fea>3a5,300 1feb>3a5,301",
   "1fec>3a1,314 1ff2>3c9,300,345 1ff3>3c9,345 1ff4>3c9,301,345 1ff6>3c9,342 1ff7>3c9,342,345",
   "1ff8>39f,300 1ff9>39f,301 1ffa>3a9,300 1ffb>3a9,301 1ffc>3a9,345 2071>69 207f>6e 2090>61",
   "2091>65 2092>6f 2093>78 2094>259 2095>68 2096-2099>6b 209a>70 209b-209c>73 2102>43 2107>190",
   "210a>67 210b>48 210c>48 210d>48 210e>68 210f>127 2110>49 2111>49 2112>4c 2113>6c 2115>4e",
   "2119-211b>50 211c>52 211d>52 2124>5a 2126>3a9 2128>5a 212a>4b 212b>41,30a 212c-212d>42",
   "212f>65 2130-2131>45 2133>4d 2134>6f 2135-2138>5d0 2139>69 213c>3c0 213d>3b3 213e>393",
   "213f>3a0 2145>44 2146-2147>64 2148-2149>69 2160>49 2161>49,49 2162>49,49,49 2163>49,56",
   "2164>56 2165>56,49 2166>56,49,49 2167>56,49,49,49 2168>49,58 2169>58 216a>58,49",
   "216b>58,49,49 216c>4c 216d-216e>43 216f>4d 2170>69 2171>69,69 2172>69,69,69 2173>69,76",
   "2174>76 2175>76,69 2176>76,69,69 2177>76,69,69,69 2178>69,78 2179>78 217a>78,69",
   "217b>78,69,69 217c>6c 217d-217e>63 217f>6d 2c7c>6a 2c7d>56 2d6f>2d61 3038>5341",
   "3039-303a>5344 304c>304b,3099 304e>304d,3099 3050>304f,3099 3052>3051,3099 3054>3053,3099",
   "3056>3055,3099 3058>3057,3099 305a>3059,3099 305c>305b,3099 305e>305d,3099 3060>305f,3099",
   "3062>3061,3099 3065>3064,3099 3067>3066,3099 3069>3068,3099 3070>306f,3099 3071>306f,309a",
   "3073>3072,3099 3074>3072,309a 3076>3075,3099 3077>3075,309a 3079>3078,3099 307a>3078,309a",
   "307c>307b,3099 307d>307b,309a 3094>3046,3099 309e>309d,3099 309f>3088,308a 30ac>30ab,3099",
   "30ae>30ad,3099 30b0>30af,3099 30b2>30b1,3099 30b4>30b3,3099 30b6>30b5,3099 30b8>30b7,3099",
   "30ba>30b9,3099 30bc>30bb,3099 30be>30bd,3099 30c0>30bf,3099 30c2>30c1,3099 30c5>30c4,3099",
   "30c7>30c6,3099 30c9>30c8,3099 30d0>30cf,3099 30d1>30cf,309a 30d3>30d2,3099 30d4>30d2,309a",
   "30d6>30d5,3099 30d7>30d5,309a 30d9>30d8,3099 30da>30d8,309a 30dc>30db,3099 30dd>30db,309a",
   "30f4>30a6,3099 30f7>30ef,3099 30f8>30f0,3099 30f9>30f1,3099 30fa>30f2,3099 30fe>30fd,3099",
   "30ff>30b3,30c8 3131-3132>1100 3133>11aa 3134>1102 3135-3136>11ac 3137-3139>1103",
   "313a-313f>11b0 3140>111a 3141-3143>1106 3144>1121 3145-314e>1109 314f-3163>1161 3164>1160",
   "3165-3166>1114 3167-3168>11c7 3169>11cc 316a>11ce 316b>11d3 316c>11d7 316d>11d9 316e>111c",
   "316f>11dd 3170>11df 3171-3172>111d 3173>1120 3174-3175>1122 3176>1127 3177>1129",
   "3178-317c>112b 317d>1132 317e>1136 317f>1140 3180>1147 3181>114c 3182-3183>11f1",
   "3184-3186>1157 3187-3188>1184 3189>1188 318a-318b>1191 318c>1194 318d>119e 318e>11a1",
   "a69c>44a a69d>44c a770>a76f a7f2>43 a7f3>46 a7f4>51 a7f8>126 a7f9>153 ab5c>a727 ab5d>ab37",
   "ab5e>26b ab5f>ab52 ab69>28d f900>8c48 f901>66f4 f902>8eca f903>8cc8 f904>6ed1 f905>4e32",
   "f906>53e5 f907>9f9c f908>9f9c f909>5951 f90a>91d1 f90b>5587 f90c>5948 f90d>61f6 f90e>7669",
   "f90f>7f85 f910>863f f911>87ba f912>88f8 f913>908f f914>6a02 f915>6d1b f916>70d9 f917>73de",
   "f918>843d f919>916a f91a>99f1 f91b>4e82 f91c>5375 f91d>6b04 f91e>721b f91f>862d f920>9e1e",
   "f921>5d50 f922>6feb f923>85cd f924>8964 f925>62c9 f926>81d8 f927>881f f928>5eca f929>6717",
   "f92a>6d6a f92b>72fc f92c>90ce f92d>4f86 f92e>51b7 f92f>52de f930>64c4 f931>6ad3 f932>7210",
   "f933>76e7 f934>8001 f935>8606 f936>865c f937>8def f938>9732 f939>9b6f f93a>9dfa f93b>788c",
   "f93c>797f f93d>7da0 f93e>83c9 f93f>9304 f940>9e7f f941>8ad6 f942>58df f943>5f04 f944>7c60",
   "f945>807e f946>7262 f947>78ca f948>8cc2 f949>96f7 f94a>58d8 f94b>5c62 f94c>6a13 f94d>6dda",
   "f94e>6f0f f94f>7d2f f950>7e37 f951>964b f952>52d2 f953>808b f954>51dc f955>51cc f956>7a1c",
   "f957>7dbe f958>83f1 f959>9675 f95a>8b80 f95b>62cf f95c>6a02 f95d>8afe f95e>4e39 f95f>5be7",
   "f960>6012 f961>7387 f962>7570 f963>5317 f964>78fb f965>4fbf f966>5fa9 f967>4e0d f968>6ccc",
   "f969>6578 f96a>7d22 f96b>53c3 f96c>585e f96d>7701 f96e>8449 f96f>8aaa f970>6bba f971>8fb0",
   "f972>6c88 f973>62fe f974>82e5 f975>63a0 f976>7565 f977>4eae f978>5169 f979>51c9 f97a>6881",
   "f97b>7ce7 f97c>826f f97d>8ad2 f97e>91cf f97f>52f5 f980>5442 f981>5973 f982>5eec f983>65c5",
   "f984>6ffe f985>792a f986>95ad f987>9a6a f988>9e97 f989>9ece f98a>529b f98b>66c6 f98c>6b77",
   "f98d>8f62 f98e>5e74 f98f>6190 f990>6200 f991>649a f992>6f23 f993>7149 f994>7489 f995>79ca",
   "f996>7df4 f997>806f f998>8f26 f999>84ee f99a>9023 f99b>934a f99c>5217 f99d>52a3 f99e>54bd",
   "f99f>70c8 f9a0>88c2 f9a1>8aaa f9a2>5ec9 f9a3>5ff5 f9a4>637b f9a5>6bae f9a6>7c3e f9a7>7375",
   "f9a8>4ee4 f9a9>56f9 f9aa>5be7 f9ab>5dba f9ac>601c f9ad>73b2 f9ae>7469 f9af>7f9a f9b0>8046",
   "f9b1>9234 f9b2>96f6 f9b3>9748 f9b4>9818 f9b5>4f8b f9b6>79ae f9b7>91b4 f9b8>96b8 f9b9>60e1",
   "f9ba>4e86 f9bb>50da f9bc>5bee f9bd>5c3f f9be>6599 f9bf>6a02 f9c0>71ce f9c1>7642 f9c2>84fc",
   "f9c3>907c f9c4>9f8d f9c5>6688 f9c6>962e f9c7>5289 f9c8>677b f9c9>67f3 f9ca>6d41 f9cb>6e9c",
   "f9cc>7409 f9cd>7559 f9ce>786b f9cf>7d10 f9d0>985e f9d1>516d f9d2>622e f9d3>9678 f9d4>502b",
   "f9d5>5d19 f9d6>6dea f9d7>8f2a f9d8>5f8b f9d9>6144 f9da>6817 f9db>7387 f9dc>9686 f9dd>5229",
   "f9de>540f f9df>5c65 f9e0>6613 f9e1>674e f9e2>68a8 f9e3>6ce5 f9e4>7406 f9e5>75e2 f9e6>7f79",
   "f9e7>88cf f9e8>88e1 f9e9>91cc f9ea>96e2 f9eb>533f f9ec>6eba f9ed>541d f9ee>71d0 f9ef>7498",
   "f9f0>85fa f9f1>96a3 f9f2>9c57 f9f3>9e9f f9f4>6797 f9f5>6dcb f9f6>81e8 f9f7>7acb f9f8>7b20",
   "f9f9>7c92 f9fa>72c0 f9fb>7099 f9fc>8b58 f9fd>4ec0 f9fe>8336 f9ff>523a fa00>5207 fa01>5ea6",
   "fa02>62d3 fa03>7cd6 fa04>5b85 fa05>6d1e fa06>66b4 fa07>8f3b fa08>884c fa09>964d fa0a>898b",
   "fa0b>5ed3 fa0c>5140 fa0d>55c0 fa10>585a fa12>6674 fa15>51de fa16>732a fa17>76ca fa18>793c",
   "fa19>795e fa1a>7965 fa1b>798f fa1c>9756 fa1d>7cbe fa1e>7fbd fa20>8612 fa22>8af8 fa25>9038",
   "fa26>90fd fa2a>98ef fa2b>98fc fa2c>9928 fa2d>9db4 fa2e>90de fa2f>96b7 fa30>4fae fa31>50e7",
   "fa32>514d fa33>52c9 fa34>52e4 fa35>5351 fa36>559d fa37>5606 fa38>5668 fa39>5840 fa3a>58a8",
   "fa3b>5c64 fa3c>5c6e fa3d>6094 fa3e>6168 fa3f>618e fa40>61f2 fa41>654f fa42>65e2 fa43>6691",
   "fa44>6885 fa45>6d77 fa46>6e1a fa47>6f22 fa48>716e fa49>722b fa4a>7422 fa4b>7891 fa4c>793e",
   "fa4d>7949 fa4e>7948 fa4f>7950 fa50>7956 fa51>795d fa52-fa53>798d fa54>7a40 fa55>7a81",
   "fa56>7bc0 fa57>7df4 fa58>7e09 fa59>7e41 fa5a>7f72 fa5b>8005 fa5c>81ed fa5d>8279 fa5e>8279",
   "fa5f>8457 fa60>8910 fa61>8996 fa62>8b01 fa63>8b39 fa64>8cd3 fa65>8d08 fa66>8fb6 fa67>9038",
   "fa68>96e3 fa69>97ff fa6a>983b fa6b>6075 fa6c>242ee fa6d>8218 fa70>4e26 fa71>51b5 fa72>5168",
   "fa73>4f80 fa74>5145 fa75>5180 fa76>52c7 fa77>52fa fa78>559d fa79>5555 fa7a>5599 fa7b>55e2",
   "fa7c>585a fa7d>58b3 fa7e>5944 fa7f>5954 fa80>5a62 fa81>5b28 fa82>5ed2 fa83>5ed9 fa84>5f69",
   "fa85>5fad fa86>60d8 fa87>614e fa88>6108 fa89>618e fa8a>6160 fa8b>61f2 fa8c>6234 fa8d>63c4",
   "fa8e>641c fa8f>6452 fa90>6556 fa91>6674 fa92>6717 fa93>671b fa94>6756 fa95>6b79 fa96>6bba",
   "fa97>6d41 fa98>6edb fa99>6ecb fa9a>6f22 fa9b>701e fa9c>716e fa9d>77a7 fa9e>7235 fa9f>72af",
   "faa0>732a faa1>7471 faa2>7506 faa3>753b faa4>761d faa5>761f faa6>76ca faa7>76db faa8>76f4",
   "faa9>774a faaa>7740 faab>78cc faac>7ab1 faad>7bc0 faae>7c7b faaf>7d5b fab0>7df4 fab1>7f3e",
   "fab2>8005 fab3>8352 fab4>83ef fab5>8779 fab6>8941 fab7>8986 fab8>8996 fab9>8abf faba>8af8",
   "fabb>8acb fabc>8b01 fabd>8afe fabe>8aed fabf>8b39 fac0>8b8a fac1>8d08 fac2>8f38 fac3>9072",
   "fac4>9199 fac5>9276 fac6>967c fac7>96e3 fac8>9756 fac9>97db faca>97ff facb>980b facc>983b",
   "facd>9b12 face>9f9c facf>2284a fad0>22844 fad1>233d5 fad2>3b9d fad3>4018 fad4>4039",
   "fad5>25249 fad6>25cd0 fad7>27ed3 fad8>9f43 fad9>9f8e fb00>66,66 fb01>66,69 fb02>66,6c",
   "fb03>66,66,69 fb04>66,66,6c fb05>73,74 fb06>73,74 fb13>574,576 fb14>574,565 fb15>574,56b",
   "fb16>57e,576 fb17>574,56d fb1d>5d9,5b4 fb1f>5f2,5b7 fb20>5e2 fb21>5d0 fb22-fb23>5d3",
   "fb24-fb26>5db fb27>5e8 fb28>5ea fb2a>5e9,5c1 fb2b>5e9,5c2 fb2c>5e9,5bc,5c1 fb2d>5e9,5bc,5c2",
   "fb2e>5d0,5b7 fb2f>5d0,5b8 fb30>5d0,5bc fb31>5d1,5bc fb32>5d2,5bc fb33>5d3,5bc fb34>5d4,5bc",
   "fb35>5d5,5bc fb36>5d6,5bc fb38>5d8,5bc fb39>5d9,5bc fb3a>5da,5bc fb3b>5db,5bc fb3c>5dc,5bc",
   "fb3e>5de,5bc fb40>5e0,5bc fb41>5e1,5bc fb43>5e3,5bc fb44>5e4,5bc fb46>5e6,5bc fb47>5e7,5bc",
   "fb48>5e8,5bc fb49>5e9,5bc fb4a>5ea,5bc fb4b>5d5,5b9 fb4c>5d1,5bf fb4d>5db,5bf fb4e>5e4,5bf",
   "fb4f>5d0,5dc fb50>671 fb51>671 fb52>67b fb53>67b fb54>67b fb55>67b fb56>67e fb57>67e",
   "fb58>67e fb59>67e fb5a>680 fb5b>680 fb5c>680 fb5d>680 fb5e>67a fb5f>67a fb60>67a fb61>67a",
   "fb62>67f fb63>67f fb64>67f fb65>67f fb66>679 fb67>679 fb68>679 fb69>679 fb6a>6a4 fb6b>6a4",
   "fb6c>6a4 fb6d>6a4 fb6e>6a6 fb6f>6a6 fb70>6a6 fb71>6a6 fb72>684 fb73>684 fb74>684 fb75>684",
   "fb76>683 fb77>683 fb78>683 fb79>683 fb7a>686 fb7b>686 fb7c>686 fb7d-fb7e>686 fb7f>687",
   "fb80>687 fb81>687 fb82>68d fb83>68d fb84>68c fb85>68c fb86>68e fb87>68e fb88>688 fb89>688",
   "fb8a>698 fb8b>698 fb8c>691 fb8d>691 fb8e>6a9 fb8f>6a9 fb90>6a9 fb91>6a9 fb92>6af fb93>6af",
   "fb94>6af fb95>6af fb96>6b3 fb97>6b3 fb98>6b3 fb99>6b3 fb9a>6b1 fb9b>6b1 fb9c>6b1 fb9d>6b1",
   "fb9e>6ba fb9f-fba0>6ba fba1>6bb fba2>6bb fba3>6bb fba4>6d5,654 fba5>6d5,654 fba6>6c1",
   "fba7>6c1 fba8>6c1 fba9>6c1 fbaa>6be fbab>6be fbac>6be fbad>6be fbae>6d2 fbaf>6d2",
   "fbb0>6d2,654 fbb1>6d2,654 fbd3>6ad fbd4>6ad fbd5>6ad fbd6>6ad fbd7>6c7 fbd8>6c7 fbd9>6c6",
   "fbda>6c6 fbdb>6c8 fbdc>6c8 fbdd>6c7,674 fbde>6cb fbdf>6cb fbe0>6c5 fbe1>6c5 fbe2>6c9",
   "fbe3>6c9 fbe4>6d0 fbe5>6d0 fbe6>6d0 fbe7>6d0 fbe8>649 fbe9>649 fbea>64a,654,627",
   "fbeb>64a,654,627 fbec>64a,654,6d5 fbed>64a,654,6d5 fbee>64a,654,648 fbef>64a,654,648",
   "fbf0>64a,654,6c7 fbf1>64a,654,6c7 fbf2>64a,654,6c6 fbf3>64a,654,6c6 fbf4>64a,654,6c8",
   "fbf5>64a,654,6c8 fbf6>64a,654,6d0 fbf7>64a,654,6d0 fbf8>64a,654,6d0 fbf9>64a,654,649",
   "fbfa>64a,654,649 fbfb>64a,654,649 fbfc>6cc fbfd>6cc fbfe>6cc fbff>6cc fc00>64a,654,62c",
   "fc01>64a,654,62d fc02>64a,654,645 fc03>64a,654,649 fc04>64a,654,64a fc05>628,62c",
   "fc06>628,62d fc07>628,62e fc08>628,645 fc09>628,649 fc0a>628,64a fc0b>62a,62c fc0c>62a,62d",
   "fc0d>62a,62e fc0e>62a,645 fc0f>62a,649 fc10>62a,64a fc11>62b,62c fc12>62b,645 fc13>62b,649",
   "fc14>62b,64a fc15>62c,62d fc16>62c,645 fc17>62d,62c fc18>62d,645 fc19>62e,62c fc1a>62e,62d",
   "fc1b>62e,645 fc1c>633,62c fc1d>633,62d fc1e>633,62e fc1f>633,645 fc20>635,62d fc21>635,645",
   "fc22>636,62c fc23>636,62d fc24>636,62e fc25>636,645 fc26>637,62d fc27>637,645 fc28>638,645",
   "fc29>639,62c fc2a>639,645 fc2b>63a,62c fc2c>63a,645 fc2d>641,62c fc2e>641,62d fc2f>641,62e",
   "fc30>641,645 fc31>641,649 fc32>641,64a fc33>642,62d fc34>642,645 fc35>642,649 fc36>642,64a",
   "fc37>643,627 fc38>643,62c fc39>643,62d fc3a>643,62e fc3b>643,644 fc3c>643,645 fc3d>643,649",
   "fc3e>643,64a fc3f>644,62c fc40>644,62d fc41>644,62e fc42>644,645 fc43>644,649 fc44>644,64a",
   "fc45>645,62c fc46>645,62d fc47>645,62e fc48>645,645 fc49>645,649 fc4a>645,64a fc4b>646,62c",
   "fc4c>646,62d fc4d>646,62e fc4e>646,645 fc4f>646,649 fc50>646,64a fc51>647,62c fc52>647,645",
   "fc53>647,649 fc54>647,64a fc55>64a,62c fc56>64a,62d fc57>64a,62e fc58>64a,645 fc59>64a,649",
   "fc5a>64a,64a fc5b>630,670 fc5c>631,670 fc5d>649,670 fc64>64a,654,631 fc65>64a,654,632",
   "fc66>64a,654,645 fc67>64a,654,646 fc68>64a,654,649 fc69>64a,654,64a fc6a>628,631",
   "fc6b>628,632 fc6c>628,645 fc6d>628,646 fc6e>628,649 fc6f>628,64a fc70>62a,631 fc71>62a,632",
   "fc72>62a,645 fc73>62a,646 fc74>62a,649 fc75>62a,64a fc76>62b,631 fc77>62b,632 fc78>62b,645",
   "fc79>62b,646 fc7a>62b,649 fc7b>62b,64a fc7c>641,649 fc7d>641,64a fc7e>642,649 fc7f>642,64a",
   "fc80>643,627 fc81>643,644 fc82>643,645 fc83>643,649 fc84>643,64a fc85>644,645 fc86>644,649",
   "fc87>644,64a fc88>645,627 fc89>645,645 fc8a>646,631 fc8b>646,632 fc8c>646,645 fc8d>646,646",
   "fc8e>646,649 fc8f>646,64a fc90>649,670 fc91>64a,631 fc92>64a,632 fc93>64a,645 fc94>64a,646",
   "fc95>64a,649 fc96>64a,64a fc97>64a,654,62c fc98>64a,654,62d fc99>64a,654,62e",
   "fc9a>64a,654,645 fc9b>64a,654,647 fc9c>628,62c fc9d>628,62d fc9e>628,62e fc9f>628,645",
   "fca0>628,647 fca1>62a,62c fca2>62a,62d fca3>62a,62e fca4>62a,645 fca5>62a,647 fca6>62b,645",
   "fca7>62c,62d fca8>62c,645 fca9>62d,62c fcaa>62d,645 fcab>62e,62c fcac>62e,645 fcad>633,62c",
   "fcae>633,62d fcaf>633,62e fcb0>633,645 fcb1>635,62d fcb2>635,62e fcb3>635,645 fcb4>636,62c",
   "fcb5>636,62d fcb6>636,62e fcb7>636,645 fcb8>637,62d fcb9>638,645 fcba>639,62c fcbb>639,645",
   "fcbc>63a,62c fcbd>63a,645 fcbe>641,62c fcbf>641,62d fcc0>641,62e fcc1>641,645 fcc2>642,62d",
   "fcc3>642,645 fcc4>643,62c fcc5>643,62d fcc6>643,62e fcc7>643,644 fcc8>643,645 fcc9>644,62c",
   "fcca>644,62d fccb>644,62e fccc>644,645 fccd>644,647 fcce>645,62c fccf>645,62d fcd0>645,62e",
   "fcd1>645,645 fcd2>646,62c fcd3>646,62d fcd4>646,62e fcd5>646,645 fcd6>646,647 fcd7>647,62c",
   "fcd8>647,645 fcd9>647,670 fcda>64a,62c fcdb>64a,62d fcdc>64a,62e fcdd>64a,645 fcde>64a,647",
   "fcdf>64a,654,645 fce0>64a,654,647 fce1>628,645 fce2>628,647 fce3>62a,645 fce4>62a,647",
   "fce5>62b,645 fce6>62b,647 fce7>633,645 fce8>633,647 fce9>634,645 fcea>634,647 fceb>643,644",
   "fcec>643,645 fced>644,645 fcee>646,645 fcef>646,647 fcf0>64a,645 fcf1>64a,647",
   "fcf2>640,64e,651 fcf3>640,64f,651 fcf4>640,650,651 fcf5>637,649 fcf6>637,64a fcf7>639,649",
   "fcf8>639,64a fcf9>63a,649 fcfa>63a,64a fcfb>633,649 fcfc>633,64a fcfd>634,649 fcfe>634,64a",
   "fcff>62d,649 fd00>62d,64a fd01>62c,649 fd02>62c,64a fd03>62e,649 fd04>62e,64a fd05>635,649",
   "fd06>635,64a fd07>636,649 fd08>636,64a fd09>634,62c fd0a>634,62d fd0b>634,62e fd0c>634,645",
   "fd0d>634,631 fd0e>633,631 fd0f>635,631 fd10>636,631 fd11>637,649 fd12>637,64a fd13>639,649",
   "fd14>639,64a fd15>63a,649 fd16>63a,64a fd17>633,649 fd18>633,64a fd19>634,649 fd1a>634,64a",
   "fd1b>62d,649 fd1c>62d,64a fd1d>62c,649 fd1e>62c,64a fd1f>62e,649 fd20>62e,64a fd21>635,649",
   "fd22>635,64a fd23>636,649 fd24>636,64a fd25>634,62c fd26>634,62d fd27>634,62e fd28>634,645",
   "fd29>634,631 fd2a>633,631 fd2b>635,631 fd2c>636,631 fd2d>634,62c fd2e>634,62d fd2f>634,62e",
   "fd30>634,645 fd31>633,647 fd32>634,647 fd33>637,645 fd34>633,62c fd35>633,62d fd36>633,62e",
   "fd37>634,62c fd38>634,62d fd39>634,62e fd3a>637,645 fd3b>638,645 fd3c>627,64b fd3d>627,64b",
   "fd50>62a,62c,645 fd51>62a,62d,62c fd52>62a,62d,62c fd53>62a,62d,645 fd54>62a,62e,645",
   "fd55>62a,645,62c fd56>62a,645,62d fd57>62a,645,62e fd58>62c,645,62d fd59>62c,645,62d",
   "fd5a>62d,645,64a fd5b>62d,645,649 fd5c>633,62d,62c fd5d>633,62c,62d fd5e>633,62c,649",
   "fd5f>633,645,62d fd60>633,645,62d fd61>633,645,62c fd62>633,645,645 fd63>633,645,645",
   "fd64>635,62d,62d fd65>635,62d,62d fd66>635,645,645 fd67>634,62d,645 fd68>634,62d,645",
   "fd69>634,62c,64a fd6a>634,645,62e fd6b>634,645,62e fd6c>634,645,645 fd6d>634,645,645",
   "fd6e>636,62d,649 fd6f>636,62e,645 fd70>636,62e,645 fd71>637,645,62d fd72>637,645,62d",
   "fd73>637,645,645 fd74>637,645,64a fd75>639,62c,645 fd76>639,645,645 fd77>639,645,645",
   "fd78>639,645,649 fd79>63a,645,645 fd7a>63a,645,64a fd7b>63a,645,649 fd7c>641,62e,645",
   "fd7d>641,62e,645 fd7e>642,645,62d fd7f>642,645,645 fd80>644,62d,645 fd81>644,62d,64a",
   "fd82>644,62d,649 fd83>644,62c,62c fd84>644,62c,62c fd85>644,62e,645 fd86>644,62e,645",
   "fd87>644,645,62d fd88>644,645,62d fd89>645,62d,62c fd8a>645,62d,645 fd8b>645,62d,64a",
   "fd8c>645,62c,62d fd8d>645,62c,645 fd8e>645,62e,62c fd8f>645,62e,645 fd92>645,62c,62e",
   "fd93>647,645,62c fd94>647,645,645 fd95>646,62d,645 fd96>646,62d,649 fd97>646,62c,645",
   "fd98>646,62c,645 fd99>646,62c,649 fd9a>646,645,64a fd9b>646,645,649 fd9c>64a,645,645",
   "fd9d>64a,645,645 fd9e>628,62e,64a fd9f>62a,62c,64a fda0>62a,62c,649 fda1>62a,62e,64a",
   "fda2>62a,62e,649 fda3>62a,645,64a fda4>62a,645,649 fda5>62c,645,64a fda6>62c,62d,649",
   "fda7>62c,645,649 fda8>633,62e,649 fda9>635,62d,64a fdaa>634,62d,64a fdab>636,62d,64a",
   "fdac>644,62c,64a fdad>644,645,64a fdae>64a,62d,64a fdaf>64a,62c,64a fdb0>64a,645,64a",
   "fdb1>645,645,64a fdb2>642,645,64a fdb3>646,62d,64a fdb4>642,645,62d fdb5>644,62d,645",
   "fdb6>639,645,64a fdb7>643,645,64a fdb8>646,62c,62d fdb9>645,62e,64a fdba>644,62c,645",
   "fdbb>643,645,645 fdbc>644,62c,645 fdbd>646,62c,62d fdbe>62c,62d,64a fdbf>62d,62c,64a",
   "fdc0>645,62c,64a fdc1>641,645,64a fdc2>628,62d,64a fdc3>643,645,645 fdc4>639,62c,645",
   "fdc5>635,645,645 fdc6>633,62e,64a fdc7>646,62c,64a fdf0>635,644,6d2 fdf1>642,644,6d2",
   "fdf2>627,644,644,647 fdf3>627,643,628,631 fdf4>645,62d,645,62f fdf5>635,644,639,645",
   "fdf6>631,633,648,644 fdf7>639,644,64a,647 fdf8>648,633,644,645 fdf9>635,644,649 fe33>5f",
   "fe34>5f fe4d>5f fe4e>5f fe4f>5f fe71>640,64b fe77>640,64e fe79>640,64f fe7b>640,650",
   "fe7d>640,651 fe7f>640,652 fe80>621 fe81>627,653 fe82>627,653 fe83>627,654 fe84>627,654",
   "fe85>648,654 fe86>648,654 fe87>627,655 fe88>627,655 fe89>64a,654 fe8a>64a,654 fe8b>64a,654",
   "fe8c>64a,654 fe8d>627 fe8e-fe8f>627 fe90>628 fe91>628 fe92-fe93>628 fe94-fe95>629 fe96>62a",
   "fe97>62a fe98-fe99>62a fe9a>62b fe9b>62b fe9c-fe9d>62b fe9e>62c fe9f>62c fea0-fea1>62c",
   "fea2>62d fea3>62d fea4-fea5>62d fea6>62e fea7>62e fea8-fea9>62e feaa-feab>62f feac-fead>630",
   "feae-feaf>631 feb0-feb1>632 feb2>633 feb3>633 feb4-feb5>633 feb6>634 feb7>634 feb8-feb9>634",
   "feba>635 febb>635 febc-febd>635 febe>636 febf>636 fec0-fec1>636 fec2>637 fec3>637",
   "fec4-fec5>637 fec6>638 fec7>638 fec8-fec9>638 feca>639 fecb>639 fecc-fecd>639 fece>63a",
   "fecf>63a fed0>63a fed1>641 fed2>641 fed3>641 fed4-fed5>641 fed6>642 fed7>642 fed8-fed9>642",
   "feda>643 fedb>643 fedc-fedd>643 fede>644 fedf>644 fee0-fee1>644 fee2>645 fee3>645",
   "fee4-fee5>645 fee6>646 fee7>646 fee8-fee9>646 feea>647 feeb>647 feec-feed>647 feee-feef>648",
   "fef0-fef1>649 fef2>64a fef3>64a fef4>64a fef5>644,627,653 fef6>644,627,653 fef7>644,627,654",
   "fef8>644,627,654 fef9>644,627,655 fefa>644,627,655 fefb>644,627 fefc>644,627 ff10-ff19>30",
   "ff21-ff3a>41 ff3f-ff41/2>5f ff42-ff5a>62 ff66>30f2 ff67>30a1 ff68>30a3 ff69>30a5 ff6a>30a7",
   "ff6b>30a9 ff6c>30e3 ff6d>30e5 ff6e>30e7 ff6f>30c3 ff70>30fc ff71>30a2 ff72>30a4 ff73>30a6",
   "ff74>30a8 ff75-ff76>30aa ff77>30ad ff78>30af ff79>30b1 ff7a>30b3 ff7b>30b5 ff7c>30b7",
   "ff7d>30b9 ff7e>30bb ff7f>30bd ff80>30bf ff81>30c1 ff82>30c4 ff83>30c6 ff84>30c8",
   "ff85-ff8a>30ca ff8b>30d2 ff8c>30d5 ff8d>30d8 ff8e>30db ff8f-ff93>30de ff94>30e4 ff95>30e6",
   "ff96-ff9b>30e8 ff9c>30ef ff9d>30f3 ff9e-ff9f>3099 ffa0>1160 ffa1-ffa2>1100 ffa3>11aa",
   "ffa4>1102 ffa5-ffa6>11ac ffa7-ffa9>1103 ffaa-ffaf>11b0 ffb0>111a ffb1-ffb3>1106 ffb4>1121",
   "ffb5-ffbe>1109 ffc2-ffc7>1161 ffca-ffcf>1167 ffd2-ffd7>116d ffda-ffdc>1173 10781-10782>2d0",
   "10783>e6 10784>299 10785>253 10787>2a3 10788>ab66 10789>2a5 1078a>2a4 1078b-1078c>256",
   "1078d>1d91 1078e>258 1078f>25e 10790>2a9 10791>264 10792>262 10793>260 10794>29b 10795>127",
   "10796>29c 10797>267 10798>284 10799-1079a>2aa 1079b>26c 1079c>1df04 1079d>a78e 1079e>26e",
   "1079f>1df05 107a0>28e 107a1>1df06 107a2>f8 107a3-107a4>276 107a5>71 107a6>27a 107a7>1df08",
   "107a8-107a9>27d 107aa>280 107ab>2a8 107ac>2a6 107ad>ab67 107ae>2a7 107af>288 107b0>2c71",
   "107b2>28f 107b3-107b4>2a1 107b5>298 107b6-107b8>1c0 107b9>1df0a 107ba>1df1e",
   "1109a>11099,110ba 1109c>1109b,110ba 110ab>110a5,110ba 1112e>11131,11127 1112f>11132,11127",
   "1134b>11347,1133e 1134c>11347,11357 114bb>114b9,114ba 114bc>114b9,114b0 114be>114b9,114bd",
   "115ba>115b8,115af 115bb>115b9,115af 11938>11935,11930 1d400-1d419>41 1d41a-1d433>61",
   "1d434-1d44d>41 1d44e-1d454>61 1d456-1d467>69 1d468-1d481>41 1d482-1d49b>61 1d49c-1d49e/2>41",
   "1d49f>44 1d4a2>47 1d4a5-1d4a6>4a 1d4a9-1d4ac>4e 1d4ae-1d4b5>53 1d4b6-1d4b9>61",
   "1d4bb-1d4bd/2>66 1d4be-1d4c3>69 1d4c5-1d4cf>70 1d4d0-1d4e9>41 1d4ea-1d503>61 1d504-1d505>41",
   "1d507-1d50a>44 1d50d-1d514>4a 1d516-1d51c>53 1d51e-1d537>61 1d538-1d539>41 1d53b-1d53e>44",
   "1d540-1d544>49 1d546>4f 1d54a-1d550>53 1d552-1d56b>61 1d56c-1d585>41 1d586-1d59f>61",
   "1d5a0-1d5b9>41 1d5ba-1d5d3>61 1d5d4-1d5ed>41 1d5ee-1d607>61 1d608-1d621>41 1d622-1d63b>61",
   "1d63c-1d655>41 1d656-1d66f>61 1d670-1d689>41 1d68a-1d6a3>61 1d6a4>131 1d6a5>237",
   "1d6a8-1d6b8>391 1d6b9>398 1d6ba-1d6c0>3a3 1d6c2-1d6da>3b1 1d6dc>3b5 1d6dd>3b8 1d6de>3ba",
   "1d6df>3c6 1d6e0>3c1 1d6e1>3c0 1d6e2-1d6f2>391 1d6f3>398 1d6f4-1d6fa>3a3 1d6fc-1d714>3b1",
   "1d716>3b5 1d717>3b8 1d718>3ba 1d719>3c6 1d71a>3c1 1d71b>3c0 1d71c-1d72c>391 1d72d>398",
   "1d72e-1d734>3a3 1d736-1d74e>3b1 1d750>3b5 1d751>3b8 1d752>3ba 1d753>3c6 1d754>3c1 1d755>3c0",
   "1d756-1d766>391 1d767>398 1d768-1d76e>3a3 1d770-1d788>3b1 1d78a>3b5 1d78b>3b8 1d78c>3ba",
   "1d78d>3c6 1d78e>3c1 1d78f>3c0 1d790-1d7a0>391 1d7a1>398 1d7a2-1d7a8>3a3 1d7aa-1d7c2>3b1",
   "1d7c4>3b5 1d7c5>3b8 1d7c6>3ba 1d7c7>3c6 1d7c8>3c1 1d7c9>3c0 1d7ca-1d7cb>3dc 1d7ce-1d7d7>30",
   "1d7d8-1d7e1>30 1d7e2-1d7eb>30 1d7ec-1d7f5>30 1d7f6-1d7ff>30 1ee00-1ee01>627 1ee02>62c",
   "1ee03>62f 1ee05>648 1ee06>632 1ee07>62d 1ee08>637 1ee09>64a 1ee0a-1ee0d>643 1ee0e>633",
   "1ee0f>639 1ee10>641 1ee11>635 1ee12>642 1ee13>631 1ee14>634 1ee15-1ee16>62a 1ee17>62e",
   "1ee18>630 1ee19>636 1ee1a>638 1ee1b>63a 1ee1c>66e 1ee1d>6ba 1ee1e>6a1 1ee1f>66f 1ee21>628",
   "1ee22>62c 1ee24>647 1ee27>62d 1ee29>64a 1ee2a-1ee2d>643 1ee2e>633 1ee2f>639 1ee30>641",
   "1ee31>635 1ee32>642 1ee34>634 1ee35-1ee36>62a 1ee37>62e 1ee39>636 1ee3b>63a 1ee42>62c",
   "1ee47>62d 1ee49>64a 1ee4b-1ee4d/2>644 1ee4e>633 1ee4f>639 1ee51>635 1ee52>642 1ee54>634",
   "1ee57>62e 1ee59>636 1ee5b>63a 1ee5d>6ba 1ee5f>66f 1ee61>628 1ee62>62c 1ee64>647 1ee67>62d",
   "1ee68>637 1ee69>64a 1ee6a-1ee6c/2>643 1ee6d>646 1ee6e>633 1ee6f>639 1ee70>641 1ee71>635",
   "1ee72>642 1ee74>634 1ee75-1ee76>62a 1ee77>62e 1ee79>636 1ee7a>638 1ee7b>63a 1ee7c>66e",
   "1ee7e>6a1 1ee80-1ee81>627 1ee82>62c 1ee83>62f 1ee84-1ee85>647 1ee86>632 1ee87>62d 1ee88>637",
   "1ee89>64a 1ee8b-1ee8d>644 1ee8e>633 1ee8f>639 1ee90>641 1ee91>635 1ee92>642 1ee93>631",
   "1ee94>634 1ee95-1ee96>62a 1ee97>62e 1ee98>630 1ee99>636 1ee9a>638 1ee9b>63a 1eea1>628",
   "1eea2>62c 1eea3>62f 1eea5>648 1eea6>632 1eea7>62d 1eea8>637 1eea9>64a 1eeab-1eead>644",
   "1eeae>633 1eeaf>639 1eeb0>641 1eeb1>635 1eeb2>642 1eeb3>631 1eeb4>634 1eeb5-1eeb6>62a",
   "1eeb7>62e 1eeb8>630 1eeb9>636 1eeba>638 1eebb>63a 1fbf0-1fbf9>30 2f800>4e3d 2f801>4e38",
   "2f802>4e41 2f803>20122 2f804>4f60 2f805>4fae 2f806>4fbb 2f807>5002 2f808>507a 2f809>5099",
   "2f80a>50e7 2f80b>50cf 2f80c>349e 2f80d>2063a 2f80e>514d 2f80f>5154 2f810>5164 2f811>5177",
   "2f812>2051c 2f813>34b9 2f814>5167 2f815>518d 2f816>2054b 2f817>5197 2f818>51a4 2f819>4ecc",
   "2f81a>51ac 2f81b>51b5 2f81c>291df 2f81d>51f5 2f81e>5203 2f81f>34df 2f820>523b 2f821>5246",
   "2f822>5272 2f823>5277 2f824>3515 2f825>52c7 2f826>52c9 2f827>52e4 2f828>52fa",
   "2f829-2f82a>5305 2f82b>5317 2f82c>5349 2f82d>5351 2f82e>535a 2f82f>5373 2f830>537d",
   "2f831>537f 2f832>537f 2f833>537f 2f834>20a2c 2f835>7070 2f836>53ca 2f837>53df 2f838>20b63",
   "2f839>53eb 2f83a>53f1 2f83b>5406 2f83c>549e 2f83d>5438 2f83e>5448 2f83f>5468 2f840>54a2",
   "2f841>54f6 2f842>5510 2f843>5553 2f844>5563 2f845>5584 2f846>5584 2f847>5599 2f848>55ab",
   "2f849>55b3 2f84a>55c2 2f84b>5716 2f84c>5606 2f84d>5717 2f84e>5651 2f84f>5674 2f850>5207",
   "2f851>58ee 2f852>57ce 2f853>57f4 2f854>580d 2f855>578b 2f856>5832 2f857>5831 2f858>58ac",
   "2f859>214e4 2f85a>58f2 2f85b>58f7 2f85c>5906 2f85d>591a 2f85e>5922 2f85f>5962 2f860>216a8",
   "2f861>216ea 2f862>59ec 2f863>5a1b 2f864>5a27 2f865>59d8 2f866>5a66 2f867>36ee 2f868>36fc",
   "2f869>5b08 2f86a>5b3e 2f86b>5b3e 2f86c>219c8 2f86d>5bc3 2f86e>5bd8 2f86f>5be7 2f870>5bf3",
   "2f871>21b18 2f872>5bff 2f873>5c06 2f874>5f53 2f875>5c22 2f876>3781 2f877>5c60 2f878>5c6e",
   "2f879>5cc0 2f87a>5c8d 2f87b>21de4 2f87c>5d43 2f87d>21de6 2f87e>5d6e 2f87f>5d6b 2f880>5d7c",
   "2f881-2f882>5de1 2f883>382f 2f884>5dfd 2f885>5e28 2f886>5e3d 2f887>5e69 2f888>3862",
   "2f889>22183 2f88a>387c 2f88b>5eb0 2f88c>5eb3 2f88d>5eb6 2f88e>5eca 2f88f>2a392 2f890>5efe",
   "2f891>22331 2f892>22331 2f893>8201 2f894>5f22 2f895>5f22 2f896>38c7 2f897>232b8 2f898>261da",
   "2f899>5f62 2f89a>5f6b 2f89b>38e3 2f89c>5f9a 2f89d>5fcd 2f89e>5fd7 2f89f>5ff9 2f8a0>6081",
   "2f8a1>393a 2f8a2>391c 2f8a3>6094 2f8a4>226d4 2f8a5>60c7 2f8a6>6148 2f8a7>614c 2f8a8>614e",
   "2f8a9>614c 2f8aa>617a 2f8ab>618e 2f8ac>61b2 2f8ad>61a4 2f8ae>61af 2f8af>61de 2f8b0>61f2",
   "2f8b1>61f6 2f8b2>6210 2f8b3>621b 2f8b4>625d 2f8b5>62b1 2f8b6>62d4 2f8b7>6350 2f8b8>22b0c",
   "2f8b9>633d 2f8ba>62fc 2f8bb>6368 2f8bc>6383 2f8bd>63e4 2f8be>22bf1 2f8bf>6422 2f8c0>63c5",
   "2f8c1>63a9 2f8c2>3a2e 2f8c3>6469 2f8c4>647e 2f8c5>649d 2f8c6>6477 2f8c7>3a6c 2f8c8>654f",
   "2f8c9>656c 2f8ca>2300a 2f8cb>65e3 2f8cc>66f8 2f8cd>6649 2f8ce>3b19 2f8cf>6691 2f8d0>3b08",
   "2f8d1>3ae4 2f8d2>5192 2f8d3>5195 2f8d4>6700 2f8d5>669c 2f8d6>80ad 2f8d7>43d9 2f8d8>6717",
   "2f8d9>671b 2f8da>6721 2f8db>675e 2f8dc>6753 2f8dd>233c3 2f8de>3b49 2f8df>67fa 2f8e0>6785",
   "2f8e1>6852 2f8e2>6885 2f8e3>2346d 2f8e4>688e 2f8e5>681f 2f8e6>6914 2f8e7>3b9d 2f8e8>6942",
   "2f8e9>69a3 2f8ea>69ea 2f8eb>6aa8 2f8ec>236a3 2f8ed>6adb 2f8ee>3c18 2f8ef>6b21 2f8f0>238a7",
   "2f8f1>6b54 2f8f2>3c4e 2f8f3>6b72 2f8f4>6b9f 2f8f5-2f8f6>6bba 2f8f7>23a8d 2f8f8>21d0b",
   "2f8f9>23afa 2f8fa>6c4e 2f8fb>23cbc 2f8fc>6cbf 2f8fd>6ccd 2f8fe>6c67 2f8ff>6d16 2f900>6d3e",
   "2f901>6d77 2f902>6d41 2f903>6d69 2f904>6d78 2f905>6d85 2f906>23d1e 2f907>6d34 2f908>6e2f",
   "2f909>6e6e 2f90a>3d33 2f90b>6ecb 2f90c>6ec7 2f90d>23ed1 2f90e>6df9 2f90f>6f6e 2f910>23f5e",
   "2f911>23f8e 2f912>6fc6 2f913>7039 2f914>701e 2f915>701b 2f916>3d96 2f917>704a 2f918>707d",
   "2f919>7077 2f91a>70ad 2f91b>20525 2f91c>7145 2f91d>24263 2f91e>719c 2f91f>243ab 2f920>7228",
   "2f921>7235 2f922>7250 2f923>24608 2f924>7280 2f925>7295 2f926>24735 2f927>24814 2f928>737a",
   "2f929>738b 2f92a>3eac 2f92b>73a5 2f92c>3eb8 2f92d>3eb8 2f92e>7447 2f92f>745c 2f930>7471",
   "2f931>7485 2f932>74ca 2f933>3f1b 2f934>7524 2f935>24c36 2f936>753e 2f937>24c92 2f938>7570",
   "2f939>2219f 2f93a>7610 2f93b>24fa1 2f93c>24fb8 2f93d>25044 2f93e>3ffc 2f93f>4008 2f940>76f4",
   "2f941>250f3 2f942>250f2 2f943>25119 2f944>25133 2f945-2f946>771e 2f947>771f 2f948>774a",
   "2f949>4039 2f94a>778b 2f94b>4046 2f94c>4096 2f94d>2541d 2f94e>784e 2f94f>788c 2f950>78cc",
   "2f951>40e3 2f952>25626 2f953>7956 2f954>2569a 2f955>256c5 2f956>798f 2f957>79eb 2f958>412f",
   "2f959>7a40 2f95a>7a4a 2f95b>7a4f 2f95c>2597c 2f95d>25aa7 2f95e>25aa7 2f95f>7aee 2f960>4202",
   "2f961>25bab 2f962>7bc6 2f963>7bc9 2f964>4227 2f965>25c80 2f966>7cd2 2f967>42a0 2f968>7ce8",
   "2f969>7ce3 2f96a>7d00 2f96b>25f86 2f96c>7d63 2f96d>4301 2f96e>7dc7 2f96f>7e02 2f970>7e45",
   "2f971>4334 2f972>26228 2f973>26247 2f974>4359 2f975>262d9 2f976>7f7a 2f977>2633e 2f978>7f95",
   "2f979>7ffa 2f97a>8005 2f97b>264da 2f97c>26523 2f97d>8060 2f97e>265a8 2f97f>8070 2f980>2335f",
   "2f981>43d5 2f982>80b2 2f983>8103 2f984>440b 2f985>813e 2f986>5ab5 2f987>267a7 2f988>267b5",
   "2f989>23393 2f98a>2339c 2f98b>8201 2f98c>8204 2f98d>8f9e 2f98e>446b 2f98f>8291 2f990>828b",
   "2f991>829d 2f992>52b3 2f993>82b1 2f994>82b3 2f995>82bd 2f996>82e6 2f997>26b3c 2f998>82e5",
   "2f999>831d 2f99a>8363 2f99b>83ad 2f99c>8323 2f99d>83bd 2f99e>83e7 2f99f>8457 2f9a0>8353",
   "2f9a1>83ca 2f9a2>83cc 2f9a3>83dc 2f9a4>26c36 2f9a5>26d6b 2f9a6>26cd5 2f9a7>452b 2f9a8>84f1",
   "2f9a9>84f3 2f9aa>8516 2f9ab>273ca 2f9ac>8564 2f9ad>26f2c 2f9ae>455d 2f9af>4561 2f9b0>26fb1",
   "2f9b1>270d2 2f9b2>456b 2f9b3>8650 2f9b4>865c 2f9b5>8667 2f9b6>8669 2f9b7>86a9 2f9b8>8688",
   "2f9b9>870e 2f9ba>86e2 2f9bb>8779 2f9bc>8728 2f9bd>876b 2f9be>8786 2f9bf>45d7 2f9c0>87e1",
   "2f9c1>8801 2f9c2>45f9 2f9c3>8860 2f9c4>8863 2f9c5>27667 2f9c6>88d7 2f9c7>88de 2f9c8>4635",
   "2f9c9>88fa 2f9ca>34bb 2f9cb>278ae 2f9cc>27966 2f9cd>46be 2f9ce>46c7 2f9cf>8aa0 2f9d0>8aed",
   "2f9d1>8b8a 2f9d2>8c55 2f9d3>27ca8 2f9d4>8cab 2f9d5>8cc1 2f9d6>8d1b 2f9d7>8d77 2f9d8>27f2f",
   "2f9d9>20804 2f9da>8dcb 2f9db>8dbc 2f9dc>8df0 2f9dd>208de 2f9de>8ed4 2f9df>8f38 2f9e0>285d2",
   "2f9e1>285ed 2f9e2>9094 2f9e3>90f1 2f9e4>9111 2f9e5>2872e 2f9e6>911b 2f9e7>9238",
   "2f9e8-2f9e9>92d7 2f9ea>927c 2f9eb>93f9 2f9ec>9415 2f9ed>28bfa 2f9ee>958b 2f9ef>4995",
   "2f9f0>95b7 2f9f1>28d77 2f9f2>49e6 2f9f3>96c3 2f9f4>5db2 2f9f5>9723 2f9f6>29145 2f9f7>2921a",
   "2f9f8>4a6e 2f9f9>4a76 2f9fa>97e0 2f9fb>2940a 2f9fc>4ab2 2f9fd>29496 2f9fe>980b 2f9ff>980b",
   "2fa00>9829 2fa01>295b6 2fa02>98e2 2fa03>4b33 2fa04>9929 2fa05>99a7 2fa06>99c2 2fa07>99fe",
   "2fa08>4bce 2fa09>29b30 2fa0a>9b12 2fa0b>9c40 2fa0c>9cfd 2fa0d>4cce 2fa0e>4ced 2fa0f>9d67",
   "2fa10>2a0ce 2fa11>4cf8 2fa12>2a105 2fa13>2a20e 2fa14>2a291 2fa15>9ebb 2fa16>4d56 2fa17>9ef9",
   "2fa18>9efe 2fa19>9f05 2fa1a>9f0f 2fa1b>9f16 2fa1c>9f3b 2fa1d>2a600"]

/-- Combining classes other than zero. -/
def combiningClasses : Table := Table.ofLines
  ["300-314>e6 315>e8 316-319>dc 31a>e8 31b>d8 31c-320>dc 321-322>ca 323-326>dc 327-328>ca",
   "329-333>dc 334-338>1 339-33c>dc 33d-344>e6 345>f0 346>e6 347-349>dc 34a-34c>e6 34d-34e>dc",
   "350-352>e6 353-356>dc 357>e6 358>e8 359-35a>dc 35b>e6 35c>e9 35d-35e>ea 35f>e9 360-361>ea",
   "362>e9 363-36f>e6 483-487>e6 591>dc 592-595>e6 596>dc 597-599>e6 59a>de 59b>dc 59c-5a1>e6",
   "5a2-5a7>dc 5a8-5a9>e6 5aa>dc 5ab-5ac>e6 5ad>de 5ae>e4 5af>e6 5b0>a 5b1>b 5b2>c 5b3>d 5b4>e",
   "5b5>f 5b6>10 5b7>11 5b8>12 5b9-5ba>13 5bb>14 5bc>15 5bd>16 5bf>17 5c1>18 5c2>19 5c4>e6",
   "5c5>dc 5c7>12 610-617>e6 618>1e 619>1f 61a>20 64b>1b 64c>1c 64d>1d 64e>1e 64f>1f 650>20",
   "651>21 652>22 653-654>e6 655-656>dc 657-65b>e6 65c>dc 65d-65e>e6 65f>dc 670>23 6d6-6dc>e6",
   "6df-6e2>e6 6e3>dc 6e4>e6 6e7-6e8>e6 6ea>dc 6eb-6ec>e6 6ed>dc 711>24 730>e6 731>dc 732-733>e6",
   "734>dc 735-736>e6 737-739>dc 73a>e6 73b-73c>dc 73d>e6 73e>dc 73f-741>e6 742>dc 743>e6 744>dc",
   "745>e6 746>dc 747>e6 748>dc 749-74a>e6 7eb-7f1>e6 7f2>dc 7f3>e6 7fd>dc 816-819>e6 81b-823>e6",
   "825-827>e6 829-82d>e6 859-85b>dc 898>e6 899-89b>dc 89c-89f>e6 8ca-8ce>e6 8cf-8d3>dc",
   "8d4-8e1>e6 8e3>dc 8e4-8e5>e6 8e6>dc 8e7-8e8>e6 8e9>dc 8ea-8ec>e6 8ed-8ef>dc 8f0>1b 8f1>1c",
   "8f2>1d 8f3-8f5>e6 8f6>dc 8f7-8f8>e6 8f9-8fa>dc 8fb-8ff>e6 93c>7 94d>9 951>e6 952>dc",
   "953-954>e6 9bc>7 9cd>9 9fe>e6 a3c>7 a4d>9 abc>7 acd>9 b3c>7 b4d>9 bcd>9 c3c>7 c4d>9 c55>54",
   "c56>5b cbc>7 ccd>9 d3b-d3c>9 d4d>9 dca>9 e38-e39>67 e3a>9 e48-e4b>6b eb8-eb9>76 eba>9",
   "ec8-ecb>7a f18-f19>dc f35>dc f37>dc f39>d8 f71>81 f72>82 f74>84 f7a-f7d>82 f80>82 f82-f83>e6",
   "f84>9 f86-f87>e6 fc6>dc 1037>7 1039-103a>9 108d>dc 135d-135f>e6 1714-1715>9 1734>9 17d2>9",
   "17dd>e6 18a9>e4 1939>de 193a>e6 193b>dc 1a17>e6 1a18>dc 1a60>9 1a75-1a7c>e6 1a7f>dc",
   "1ab0-1ab4>e6 1ab5-1aba>dc 1abb-1abc>e6 1abd>dc 1abf-1ac0>dc 1ac1-1ac2>e6 1ac3-1ac4>dc",
   "1ac5-1ac9>e6 1aca>dc 1acb-1ace>e6 1b34>7 1b44>9 1b6b>e6 1b6c>dc 1b6d-1b73>e6 1baa-1bab>9",
   "1be6>7 1bf2-1bf3>9 1c37>7 1cd0-1cd2>e6 1cd4>1 1cd5-1cd9>dc 1cda-1cdb>e6 1cdc-1cdf>dc 1ce0>e6",
   "1ce2-1ce8>1 1ced>dc 1cf4>e6 1cf8-1cf9>e6 1dc0-1dc1>e6 1dc2>dc 1dc3-1dc9>e6 1dca>dc",
   "1dcb-1dcc>e6 1dcd>ea 1dce>d6 1dcf>dc 1dd0>ca 1dd1-1df5>e6 1df6>e8 1df7-1df8>e4 1df9>dc",
   "1dfa>da 1dfb>e6 1dfc>e9 1dfd>dc 1dfe>e6 1dff>dc 20d0-20d1>e6 20d2-20d3>1 20d4-20d7>e6",
   "20d8-20da>1 20db-20dc>e6 20e1>e6 20e5-20e6>1 20e7>e6 20e8>dc 20e9>e6 20ea-20eb>1",
   "20ec-20ef>dc 20f0>e6 2cef-2cf1>e6 2d7f>9 2de0-2dff>e6 302a>da 302b>e4 302c>e8 302d>de",
   "302e-302f>e0 3099-309a>8 a66f>e6 a674-a67d>e6 a69e-a69f>e6 a6f0-a6f1>e6 a806>9 a82c>9 a8c4>9",
   "a8e0-a8f1>e6 a92b-a92d>dc a953>9 a9b3>7 a9c0>9 aab0>e6 aab2-aab3>e6 aab4>dc aab7-aab8>e6",
   "aabe-aabf>e6 aac1>e6 aaf6>9 abed>9 fb1e>1a fe20-fe26>e6 fe27-fe2d>dc fe2e-fe2f>e6 101fd>dc",
   "102e0>dc 10376-1037a>e6 10a0d>dc 10a0f>e6 10a38>e6 10a39>1 10a3a>dc 10a3f>9 10ae5>e6",
   "10ae6>dc 10d24-10d27>e6 10eab-10eac>e6 10f46-10f47>dc 10f48-10f4a>e6 10f4b>dc 10f4c>e6",
   "10f4d-10f50>dc 10f82>e6 10f83>dc 10f84>e6 10f85>dc 11046>9 11070>9 1107f>9 110b9>9 110ba>7",
   "11100-11102>e6 11133-11134>9 11173>7 111c0>9 111ca>7 11235>9 11236>7 112e9>7 112ea>9",
   "1133b-1133c>7 1134d>9 11366-1136c>e6 11370-11374>e6 11442>9 11446>7 1145e>e6 114c2>9 114c3>7",
   "115bf>9 115c0>7 1163f>9 116b6>9 116b7>7 1172b>9 11839>9 1183a>7 1193d-1193e>9 11943>7",
   "119e0>9 11a34>9 11a47>9 11a99>9 11c3f>9 11d42>7 11d44-11d45>9 11d97>9 16af0-16af4>1",
   "16b30-16b36>e6 16ff0-16ff1>6 1bc9e>1 1d165-1d166>d8 1d167-1d169>1 1d16d>e2 1d16e-1d172>d8",
   "1d17b-1d182>dc 1d185-1d189>e6 1d18a-1d18b>dc 1d1aa-1d1ad>e6 1d242-1d244>e6 1e000-1e006>e6",
   "1e008-1e018>e6 1e01b-1e021>e6 1e023-1e024>e6 1e026-1e02a>e6 1e130-1e136>e6 1e2ae>e6",
   "1e2ec-1e2ef>e6 1e8d0-1e8d6>dc 1e944-1e949>e6 1e94a>7"]

/-- Canonical compositions: a first code point with, in turn, each second one and the composite. -/
def compositions : Table := Table.ofLines
  ["",
   "41>300,c0,301,c1,302,c2,303,c3,304,100,306,102,307,226,308,c4,309,1ea2,30a,c5,30c,1cd,30f,200,311,202,323,1ea0,325,1e00,328,104",
   "42>307,1e02,323,1e04,331,1e06 43>301,106,302,108,307,10a,30c,10c,327,c7",
   "44>307,1e0a,30c,10e,323,1e0c,327,1e10,32d,1e12,331,1e0e",
   "45>300,c8,301,c9,302,ca,303,1ebc,304,112,306,114,307,116,308,cb,309,1eba,30c,11a,30f,204,311,206,323,1eb8,327,228,328,118,32d,1e18,330,1e1a",
   "46>307,1e1e 47>301,1f4,302,11c,304,1e20,306,11e,307,120,30c,1e6,327,122",
   "48>302,124,307,1e22,308,1e26,30c,21e,323,1e24,327,1e28,32e,1e2a",
   "49>300,cc,301,cd,302,ce,303,128,304,12a,306,12c,307,130,308,cf,309,1ec8,30c,1cf,30f,208,311,20a,323,1eca,328,12e,330,1e2c",
   "4a>302,134 4b>301,1e30,30c,1e8,323,1e32,327,136,331,1e34",
   "4c>301,139,30c,13d,323,1e36,327,13b,32d,1e3c,331,1e3a 4d>301,1e3e,307,1e40,323,1e42",
   "4e>300,1f8,301,143,303,d1,307,1e44,30c,147,323,1e46,327,145,32d,1e4a,331,1e48",
   "4f>300,d2,301,d3,302,d4,303,d5,304,14c,306,14e,307,22e,308,d6,309,1ece,30b,150,30c,1d1,30f,20c,311,20e,31b,1a0,323,1ecc,328,1ea",
   "50>301,1e54,307,1e56 52>301,154,307,1e58,30c,158,30f,210,311,212,323,1e5a,327,156,331,1e5e",
   "53>301,15a,302,15c,307,1e60,30c,160,323,1e62,326,218,327,15e",
   "54>307,1e6a,30c,164,323,1e6c,326,21a,327,162,32d,1e70,331,1e6e",
   "55>300,d9,301,da,302,db,303,168,304,16a,306,16c,308,dc,309,1ee6,30a,16e,30b,170,30c,1d3,30f,214,311,216,31b,1af,323,1ee4,324,1e72,328,172,32d,1e76,330,1e74",
   "56>303,1e7c,323,1e7e 57>300,1e80,301,1e82,302,174,307,1e86,308,1e84,323,1e88",
   "58>307,1e8a,308,1e8c",
   "59>300,1ef2,301,dd,302,176,303,1ef8,304,232,307,1e8e,308,178,309,1ef6,323,1ef4",
   "5a>301,179,302,1e90,307,17b,30c,17d,323,1e92,331,1e94",
   "61>300,e0,301,e1,302,e2,303,e3,304,101,306,103,307,227,308,e4,309,1ea3,30a,e5,30c,1ce,30f,201,311,203,323,1ea1,325,1e01,328,105",
   "62>307,1e03,323,1e05,331,1e07 63>301,107,302,109,307,10b,30c,10d,327,e7",
   "64>307,1e0b,30c,10f,323,1e0d,327,1e11,32d,1e13,331,1e0f",
   "65>300,e8,301,e9,302,ea,303,1ebd,304,113,306,115,307,117,308,eb,309,1ebb,30c,11b,30f,205,311,207,323,1eb9,327,229,328,119,32d,1e19,330,1e1b",
   "66>307,1e1f 67>301,1f5,302,11d,304,1e21,306,11f,307,121,30c,1e7,327,123",
   "68>302,125,307,1e23,308,1e27,30c,21f,323,1e25,327,1e29,32e,1e2b,331,1e96",
   "69>300,ec,301,ed,302,ee,303,129,304,12b,306,12d,308,ef,309,1ec9,30c,1d0,30f,209,311,20b,323,1ecb,328,12f,330,1e2d",
   "6a>302,135,30c,1f0 6b>301,1e31,30c,1e9,323,1e33,327,137,331,1e35",
   "6c>301,13a,30c,13e,323,1e37,327,13c,32d,1e3d,331,1e3b 6d>301,1e3f,307,1e41,323,1e43",
   "6e>300,1f9,301,144,303,f1,307,1e45,30c,148,323,1e47,327,146,32d,1e4b,331,1e49",
   "6f>300,f2,301,f3,302,f4,303,f5,304,14d,306,14f,307,22f,308,f6,309,1ecf,30b,151,30c,1d2,30f,20d,311,20f,31b,1a1,323,1ecd,328,1eb",
   "70>301,1e55,307,1e57 72>301,155,307,1e59,30c,159,30f,211,311,213,323,1e5b,327,157,331,1e5f",
   "73>301,15b,302,15d,307,1e61,30c,161,323,1e63,326,219,327,15f",
   "74>307,1e6b,308,1e97,30c,165,323,1e6d,326,21b,327,163,32d,1e71,331,1e6f",
   "75>300,f9,301,fa,302,fb,303,169,304,16b,306,16d,308,fc,309,1ee7,30a,16f,30b,171,30c,1d4,30f,215,311,217,31b,1b0,323,1ee5,324,1e73,328,173,32d,1e77,330,1e75",
   "76>303,1e7d,323,1e7f 77>300,1e81,301,1e83,302,175,307,1e87,308,1e85,30a,1e98,323,1e89",
   "78>307,1e8b,308,1e8d",
   "79>300,1ef3,301,fd,302,177,303,1ef9,304,233,307,1e8f,308,ff,309,1ef7,30a,1e99,323,1ef5",
   "7a>301,17a,302,1e91,307,17c,30c,17e,323,1e93,331,1e95 c2>300,1ea6,301,1ea4,303,1eaa,309,1ea8",
   "c4>304,1de c5>301,1fa c6>301,1fc,304,1e2 c7>301,1e08 ca>300,1ec0,301,1ebe,303,1ec4,309,1ec2",
   "cf>301,1e2e d4>300,1ed2,301,1ed0,303,1ed6,309,1ed4 d5>301,1e4c,304,22c,308,1e4e d6>304,22a",
   "d8>301,1fe dc>300,1db,301,1d7,304,1d5,30c,1d9 e2>300,1ea7,301,1ea5,303,1eab,309,1ea9",
   "e4>304,1df e5>301,1fb e6>301,1fd,304,1e3 e7>301,1e09 ea>300,1ec1,301,1ebf,303,1ec5,309,1ec3",
   "ef>301,1e2f f4>300,1ed3,301,1ed1,303,1ed7,309,1ed5 f5>301,1e4d,304,22d,308,1e4f f6>304,22b",
   "f8>301,1ff fc>300,1dc,301,1d8,304,1d6,30c,1da 102>300,1eb0,301,1eae,303,1eb4,309,1eb2",
   "103>300,1eb1,301,1eaf,303,1eb5,309,1eb3 112>300,1e14,301,1e16 113>300,1e15,301,1e17",
   "14c>300,1e50,301,1e52 14d>300,1e51,301,1e53 15a>307,1e64 15b>307,1e65 160>307,1e66",
   "161>307,1e67 168>301,1e78 169>301,1e79 16a>308,1e7a 16b>308,1e7b 17f>307,1e9b",
   "1a0>300,1edc,301,1eda,303,1ee0,309,1ede,323,1ee2",
   "1a1>300,1edd,301,1edb,303,1ee1,309,1edf,323,1ee3",
   "1af>300,1eea,301,1ee8,303,1eee,309,1eec,323,1ef0",
   "1b0>300,1eeb,301,1ee9,303,1eef,309,1eed,323,1ef1 1b7>30c,1ee 1ea>304,1ec 1eb>304,1ed",
   "226>304,1e0 227>304,1e1 228>306,1e1c 229>306,1e1d 22e>304,230 22f>304,231 292>30c,1ef",
   "391>300,1fba,301,386,304,1fb9,306,1fb8,313,1f08,314,1f09,345,1fbc",
   "395>300,1fc8,301,388,313,1f18,314,1f19 397>300,1fca,301,389,313,1f28,314,1f29,345,1fcc",
   "399>300,1fda,301,38a,304,1fd9,306,1fd8,308,3aa,313,1f38,314,1f39",
   "39f>300,1ff8,301,38c,313,1f48,314,1f49 3a1>314,1fec",
   "3a5>300,1fea,301,38e,304,1fe9,306,1fe8,308,3ab,314,1f59",
   "3a9>300,1ffa,301,38f,313,1f68,314,1f69,345,1ffc 3ac>345,1fb4 3ae>345,1fc4",
   "3b1>300,1f70,301,3ac,304,1fb1,306,1fb0,313,1f00,314,1f01,342,1fb6,345,1fb3",
   "3b5>300,1f72,301,3ad,313,1f10,314,1f11",
   "3b7>300,1f74,301,3ae,313,1f20,314,1f21,342,1fc6,345,1fc3",
   "3b9>300,1f76,301,3af,304,1fd1,306,1fd0,308,3ca,313,1f30,314,1f31,342,1fd6",
   "3bf>300,1f78,301,3cc,313,1f40,314,1f41 3c1>313,1fe4,314,1fe5",
   "3c5>300,1f7a,301,3cd,304,1fe1,306,1fe0,308,3cb,313,1f50,314,1f51,342,1fe6",
   "3c9>300,1f7c,301,3ce,313,1f60,314,1f61,342,1ff6,345,1ff3 3ca>300,1fd2,301,390,342,1fd7",
   "3cb>300,1fe2,301,3b0,342,1fe7 3ce>345,1ff4 3d2>301,3d3,308,3d4 406>308,407",
   "410>306,4d0,308,4d2 413>301,403 415>300,400,306,4d6,308,401 416>306,4c1,308,4dc 417>308,4de",
   "418>300,40d,304,4e2,306,419,308,4e4 41a>301,40c 41e>308,4e6",
   "423>304,4ee,306,40e,308,4f0,30b,4f2 427>308,4f4 42b>308,4f8 42d>308,4ec 430>306,4d1,308,4d3",
   "433>301,453 435>300,450,306,4d7,308,451 436>306,4c2,308,4dd 437>308,4df",
   "438>300,45d,304,4e3,306,439,308,4e5 43a>301,45c 43e>308,4e7",
   "443>304,4ef,306,45e,308,4f1,30b,4f3 447>308,4f5 44b>308,4f9 44d>308,4ed 456>308,457",
   "474>30f,476 475>30f,477 4d8>308,4da 4d9>308,4db 4e8>308,4ea 4e9>308,4eb",
   "627>653,622,654,623,655,625 648>654,624 64a>654,626 6c1>654,6c2 6d2>654,6d3 6d5>654,6c0",
   "928>93c,929 930>93c,931 933>93c,934 9c7>9be,9cb,9d7,9cc b47>b3e,b4b,b56,b48,b57,b4c",
   "b92>bd7,b94 bc6>bbe,bca,bd7,bcc bc7>bbe,bcb c46>c56,c48 cbf>cd5,cc0",
   "cc6>cc2,cca,cd5,cc7,cd6,cc8 cca>cd5,ccb d46>d3e,d4a,d57,d4c d47>d3e,d4b",
   "dd9>dca,dda,dcf,ddc,ddf,dde ddc>dca,ddd 1025>102e,1026 1b05>1b35,1b06 1b07>1b35,1b08",
   "1b09>1b35,1b0a 1b0b>1b35,1b0c 1b0d>1b35,1b0e 1b11>1b35,1b12 1b3a>1b35,1b3b 1b3c>1b35,1b3d",
   "1b3e>1b35,1b40 1b3f>1b35,1b41 1b42>1b35,1b43 1e36>304,1e38 1e37>304,1e39 1e5a>304,1e5c",
   "1e5b>304,1e5d 1e62>307,1e68 1e63>307,1e69 1ea0>302,1eac,306,1eb6 1ea1>302,1ead,306,1eb7",
   "1eb8>302,1ec6 1eb9>302,1ec7 1ecc>302,1ed8 1ecd>302,1ed9",
   "1f00>300,1f02,301,1f04,342,1f06,345,1f80 1f01>300,1f03,301,1f05,342,1f07,345,1f81",
   "1f02>345,1f82 1f03>345,1f83 1f04>345,1f84 1f05>345,1f85 1f06>345,1f86 1f07>345,1f87",
   "1f08>300,1f0a,301,1f0c,342,1f0e,345,1f88 1f09>300,1f0b,301,1f0d,342,1f0f,345,1f89",
   "1f0a>345,1f8a 1f0b>345,1f8b 1f0c>345,1f8c 1f0d>345,1f8d 1f0e>345,1f8e 1f0f>345,1f8f",
   "1f10>300,1f12,301,1f14 1f11>300,1f13,301,1f15 1f18>300,1f1a,301,1f1c 1f19>300,1f1b,301,1f1d",
   "1f20>300,1f22,301,1f24,342,1f26,345,1f90 1f21>300,1f23,301,1f25,342,1f27,345,1f91",
   "1f22>345,1f92 1f23>345,1f93 1f24>345,1f94 1f25>345,1f95 1f26>345,1f96 1f27>345,1f97",
   "1f28>300,1f2a,301,1f2c,342,1f2e,345,1f98 1f29>300,1f2b,301,1f2d,342,1f2f,345,1f99",
   "1f2a>345,1f9a 1f2b>345,1f9b 1f2c>345,1f9c 1f2d>345,1f9d 1f2e>345,1f9e 1f2f>345,1f9f",
   "1f30>300,1f32,301,1f34,342,1f36 1f31>300,1f33,301,1f35,342,1f37",
   "1f38>300,1f3a,301,1f3c,342,1f3e 1f39>300,1f3b,301,1f3d,342,1f3f 1f40>300,1f42,301,1f44",
   "1f41>300,1f43,301,1f45 1f48>300,1f4a,301,1f4c 1f49>300,1f4b,301,1f4d",
   "1f50>300,1f52,301,1f54,342,1f56 1f51>300,1f53,301,1f55,342,1f57",
   "1f59>300,1f5b,301,1f5d,342,1f5f 1f60>300,1f62,301,1f64,342,1f66,345,1fa0",
   "1f61>300,1f63,301,1f65,342,1f67,345,1fa1 1f62>345,1fa2 1f63>345,1fa3 1f64>345,1fa4",
   "1f65>345,1fa5 1f66>345,1fa6 1f67>345,1fa7 1f68>300,1f6a,301,1f6c,342,1f6e,345,1fa8",
   "1f69>300,1f6b,301,1f6d,342,1f6f,345,1fa9 1f6a>345,1faa 1f6b>345,1fab 1f6c>345,1fac",
   "1f6d>345,1fad 1f6e>345,1fae 1f6f>345,1faf 1f70>345,1fb2 1f74>345,1fc2 1f7c>345,1ff2",
   "1fb6>345,1fb7 1fc6>345,1fc7 1ff6>345,1ff7 3046>3099,3094 304b>3099,304c 304d>3099,304e",
   "304f>3099,3050 3051>3099,3052 3053>3099,3054 3055>3099,3056 3057>3099,3058 3059>3099,305a",
   "305b>3099,305c 305d>3099,305e 305f>3099,3060 3061>3099,3062 3064>3099,3065 3066>3099,3067",
   "3068>3099,3069 306f>3099,3070,309a,3071 3072>3099,3073,309a,3074 3075>3099,3076,309a,3077",
   "3078>3099,3079,309a,307a 307b>3099,307c,309a,307d 309d>3099,309e 30a6>3099,30f4",
   "30ab>3099,30ac 30ad>3099,30ae 30af>3099,30b0 30b1>3099,30b2 30b3>3099,30b4 30b5>3099,30b6",
   "30b7>3099,30b8 30b9>3099,30ba 30bb>3099,30bc 30bd>3099,30be 30bf>3099,30c0 30c1>3099,30c2",
   "30c4>3099,30c5 30c6>3099,30c7 30c8>3099,30c9 30cf>3099,30d0,309a,30d1",
   "30d2>3099,30d3,309a,30d4 30d5>3099,30d6,309a,30d7 30d8>3099,30d9,309a,30da",
   "30db>3099,30dc,309a,30dd 30ef>3099,30f7 30f0>3099,30f8 30f1>3099,30f9 30f2>3099,30fa",
   "30fd>3099,30fe 11099>110ba,1109a 1109b>110ba,1109c 110a5>110ba,110ab 11131>11127,1112e",
   "11132>11127,1112f 11347>1133e,1134b,11357,1134c 114b9>114b0,114bc,114ba,114bb,114bd,114be",
   "115b8>115af,115ba 115b9>115af,115bb 11935>11930,11938"]

/-- The combining class of a code point. -/
def combiningClass (c : CodePoint) : Nat :=
  ((combiningClasses.find? c).bind fun r => r.image.head?).getD 0

/-! ### Hangul syllables -/

/-- The conjoining jamo of a Hangul syllable, and nothing for another code point. -/
def decomposeSyllable? (c : CodePoint) : Option CodePoints :=
  if 0xac00 ≤ c ∧ c < 0xac00 + 11172 then
    let s := c - 0xac00
    let lead := 0x1100 + s / 588
    let vowel := 0x1161 + s % 588 / 28
    let tail := 0x11a7 + s % 28
    some (if tail = 0x11a7 then [lead, vowel] else [lead, vowel, tail])
  else none

/-- The syllable that two jamo, or a syllable without a tail and a tail, form. -/
def composeSyllable? (a b : CodePoint) : Option CodePoint :=
  if 0x1100 ≤ a ∧ a < 0x1100 + 19 ∧ 0x1161 ≤ b ∧ b < 0x1161 + 21 then
    some (0xac00 + ((a - 0x1100) * 21 + (b - 0x1161)) * 28)
  else if 0xac00 ≤ a ∧ a < 0xac00 + 11172 ∧ (a - 0xac00) % 28 = 0 ∧
      0x11a7 < b ∧ b < 0x11a7 + 28 then
    some (a + (b - 0x11a7))
  else none

/-! ### Decomposition, ordering, composition -/

/-- The full compatibility decomposition of one code point. -/
def decompose (c : CodePoint) : CodePoints :=
  match decomposeSyllable? c with
  | some jamo => jamo
  | none =>
    match decompositions.find? c with
    | some r => r.imageAt c
    | none => [c]

/-- Puts a mark before the marks of a greater class at the start of `cs`. -/
def insertMark (c : CodePoint) : CodePoints → CodePoints
  | [] => [c]
  | d :: cs =>
    if combiningClass d != 0 && combiningClass c > combiningClass d then d :: insertMark c cs
    else c :: d :: cs

/-- Sorts every run of marks by class and keeps the order of marks of one class. -/
def orderMarks : CodePoints → CodePoints
  | [] => []
  | c :: cs =>
    if combiningClass c = 0 then c :: orderMarks cs else insertMark c (orderMarks cs)

/-- The composite of two code points. -/
def compose? (a b : CodePoint) : Option CodePoint :=
  match composeSyllable? a b with
  | some c => some c
  | none => (compositions.find? a).bind fun r => second b r.image
where
  /-- Looks for `b` in a list that alternates seconds and composites. -/
  second (b : CodePoint) : List CodePoint → Option CodePoint
    | s :: c :: rest => if s = b then some c else second b rest
    | _ => none

/-- Composes from a starter on.  `marks` are the marks since the starter that did not compose,
in reverse; a mark is blocked by one of its own class or a greater one. -/
def composeFrom (starter : CodePoint) (marks : CodePoints) : CodePoints → CodePoints
  | [] => starter :: marks.reverse
  | c :: cs =>
    let blocked := (marks.head?.map fun m => decide (combiningClass c ≤ combiningClass m)).getD false
    match if blocked then none else compose? starter c with
    | some d => composeFrom d marks cs
    | none =>
      if combiningClass c = 0 then starter :: marks.reverse ++ composeFrom c [] cs
      else composeFrom starter (c :: marks) cs

/-- Canonical composition.  Marks before the first starter stay as they are. -/
def compose : CodePoints → CodePoints
  | [] => []
  | c :: cs => if combiningClass c = 0 then composeFrom c [] cs else c :: compose cs

/-- The compatibility form of a sequence of code points. -/
def compatibilityForm (cs : CodePoints) : CodePoints :=
  if cs.all (· < 0x80) then cs else compose (orderMarks (cs.flatMap decompose))

end KeyOrder.Unicode
